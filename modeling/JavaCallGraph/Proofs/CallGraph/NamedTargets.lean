import JavaCallGraph.Proofs.CallGraph.DispatchFailures
import JavaCallGraph.Proofs.CallGraph.Dispatching
import JavaCallGraph.Proofs.CallGraph.LinkFailures
import Mathlib

/-!
The declaration that a method call names stays among what the call is linked to.

Two results. On a program without libraries no call site is left without targets, whatever nodes are
built and however the builds end. And in a build of a whole program, a method call that is linked at
all is linked to the declaration it names, and to declarations of that signature only.
-/

namespace JavaCallGraph.CallGraph

variable {p : Program} {settings : Settings}

/-- A class whose method calls itself on `this`, and a subclass that overrides it. -/
def overridden : Program :=
  Program.empty
    |>.addUnit { path := "A.java" }
    |>.append ⟨0⟩ (.type { kind := .classType, name := "A" }) .unknown
    |>.append ⟨1⟩ (.callable (.method "m")) .unknown
    |>.append ⟨2⟩ (.statement (.other "expression_statement")) .unknown
    |>.append ⟨3⟩ (.methodCall { name := "m", scope := .this }) .unknown
    |>.append ⟨0⟩ (.type { kind := .classType, name := "B", superclass := some "A" }) .unknown
    |>.append ⟨5⟩ (.callable (.method "m")) .unknown

theorem overridden_grown : overridden.Grown := by
  unfold overridden
  repeat' constructor

/-- The links of the call from the method to itself and to the method that overrides it. -/
def overriddenLinks : List Link :=
  let edge : Edge := { kind := .methodCall, call := ⟨4⟩, point := ⟨0, ⟨2⟩, ⟨3⟩⟩ }
  [⟨⟨2⟩, ⟨2⟩, edge⟩, ⟨⟨2⟩, ⟨6⟩, edge⟩]

def overriddenGraph : CallGraph where
  vertices := [⟨⟨2⟩, .method, "m()", some "A"⟩, ⟨⟨6⟩, .method, "m()", some "B"⟩]
  bySignature := ⟨[("m()", [⟨⟨2⟩, .method, "m()", some "A"⟩, ⟨⟨6⟩, .method, "m()", some "B"⟩])]⟩
  links := overriddenLinks
  reports := [⟨⟨4⟩, .methodCall, some ⟨2⟩, .linked 2⟩]
  built := true

theorem overridden_built :
    build (.reference overridden { zeroTargets := .strict }) empty overridden.units =
      (overriddenGraph, .ok ()) := by
  rw [build_eq overridden_grown.forest rfl (by decide)]
  cbv

/-! ### Nothing to run -/

/-- A failure for another reason than that dispatch left nothing to run. -/
def OtherReason (e : Error) : Prop := ∀ call, e ≠ .noDispatchTargets call

theorem otherReason_of_failure {e : Error} (failure : Resolver.Failure e) : OtherReason e := by
  intro call same
  cases failure <;> cases same

theorem reports_ne_noTargets (forest : p.Forest) (sources : p.SourceOnly) {g : CallGraph}
    (reached : Reached (.reference p settings) g) : ∀ r ∈ g.reports, r.outcome ≠ .noTargets := by
  induction reached with
  | empty =>
    intro r member
    cases member
  | @build g units _ ih =>
    intro r member
    have step := build_step (s := .reference p settings) forest g units
    rcases step.mem_reports member with old | ⟨node, kind, scope, e, visited, isCall, records, rfl⟩
    · exact ih r old
    · cases records with
      | found _ _ _ => exact Attempt.outcome_ne_noTargets _
      | noTargets _ found => exact absurd found (targets_ne_noTargets forest sources visited isCall)
      | unresolved _ _ _ => exact fun same => nomatch same
      | typeLevel _ _ => exact fun same => nomatch same

theorem build_ne_noDispatchTargets (forest : p.Forest) (sources : p.SourceOnly) (g : CallGraph)
    (units : List NodeId) (call : String) :
    (build (.reference p settings) g units).2 ≠ .error (.noDispatchTargets call) := by
  intro failed
  have step := build_step (s := .reference p settings) forest g units
  generalize build (.reference p settings) g units = ended at step failed
  obtain ⟨g', result⟩ := ended
  cases failed
  rcases step.error with ⟨id, same⟩ | ⟨node, kind, scope, links, visited, isCall, fails⟩
  · cases same
  · generalize reason : Error.noDispatchTargets call = e at fails
    cases fails with
    | unlinked _ _ failed final => exact absurd (linkOf_recoverable isCall _ _ _ _ failed) final
    | noTargets _ found _ => exact targets_ne_noTargets forest sources visited isCall found
    | unresolved _ failed _ =>
      have current : ∀ t, scope.currentType? = some t → p.isType t :=
        fun t => isType_of_currentType? forest visited
      have typing : ∀ c, p.Operand node c →
          FailsOnlyBy OtherReason (Resolver.staticType (Hierarchy.build p) c) :=
        fun c _ => (Resolver.staticType_fails c).mono fun _ => otherReason_of_failure
      exact targets_fails (fun _ => otherReason_of_failure (.unresolved _)) current typing isCall _
        failed call reason.symm
    | outside _ _ => cases reason

/-- On a program without libraries no build, after any others, leaves a call site without targets or
stops for the lack of them. -/
theorem dispatch_never_empty (grown : p.Grown) (sources : p.SourceOnly) {g : CallGraph}
    (reached : Reached (.reference p settings) g) :
    (∀ r ∈ g.reports, r.outcome ≠ .noTargets) ∧
      ∀ units call,
        (build (.reference p settings) g units).2 ≠ .error (.noDispatchTargets call) :=
  ⟨reports_ne_noTargets grown.forest sources reached,
    build_ne_noDispatchTargets grown.forest sources g⟩

/-- A build that fails for a missing node, then one in which a call has two targets. -/
theorem dispatch_never_empty_overridden :
    let s := Basis.reference overridden { zeroTargets := .strict }
    build s empty [⟨7⟩] = (empty, .error (.missingNode ⟨7⟩)) ∧
      build s empty overridden.units = (overriddenGraph, .ok ()) ∧
      (∀ r ∈ overriddenGraph.reports, r.outcome ≠ .noTargets) ∧
        ∀ units call, (build s overriddenGraph units).2 ≠ .error (.noDispatchTargets call) := by
  intro s
  have failed : build s empty [⟨7⟩] = (empty, .error (.missingNode ⟨7⟩)) := by rfl
  have reached : Reached s (build s (build s empty [⟨7⟩]).1 overridden.units).1 :=
    .build _ (.build _ .empty)
  rw [failed, overridden_built] at reached
  exact ⟨failed, overridden_built, dispatch_never_empty overridden_grown (by decide) reached⟩

/-! ### The declaration a call names -/

theorem linkOf_retarget {s : Basis} {g : CallGraph} {source target target' call : NodeId}
    {kind : CallKind} {link : Link} {v : Vertex}
    (made : linkOf s g source target kind call = .ok link)
    (found : g.vertex? s.program target' = some v) :
    linkOf s g source target' kind call = .ok { link with target := v.declaration } := by
  obtain ⟨point, edge, caller, callee, located, anchored, leaves, -, rfl⟩ := linkOf_eq_ok.mp made
  exact linkOf_eq_ok.mpr ⟨point, edge, caller, v, located, anchored, leaves, found, rfl⟩

/-- A link is made for its call and ends at a vertex with the signature of its target. -/
theorem linkOf_ends {s : Basis} {g : CallGraph} (sound : Sound s.program g)
    {source target call : NodeId} {kind : CallKind} {link : Link}
    (made : linkOf s g source target kind call = .ok link) :
    link.edge.call = call ∧ ∃ v ∈ g.vertices, v.declaration = link.target ∧
      s.program.signature? target = some v.signature := by
  obtain ⟨point, edge, caller, callee, -, anchored, -, found, rfl⟩ := linkOf_eq_ok.mp made
  obtain ⟨-, -, rfl⟩ := edge_of_eq_ok anchored
  obtain ⟨present, -, signed⟩ := vertex?_spec sound found
  exact ⟨rfl, callee, present, rfl, signed⟩

/-- Every callable of a program has a vertex once all units are enrolled. -/
theorem vertex?_of_callable (forest : p.Forest) {d : NodeId} (callable : p.isCallable d) :
    ∃ v, (addVertices p empty p.units).vertex? p d = some v := by
  obtain ⟨decl, read⟩ := Option.isSome_iff_exists.mp callable
  obtain ⟨u, unit, below⟩ := forest.exists_unit_above (Program.has_of_callable? read)
  exact Option.isSome_iff_exists.mp
    (vertex?_addVertices_isSome (List.mem_flatMap.mpr ⟨u, unit, below⟩) callable)

/-- A method call that is linked at all has targets that were found by dispatch, and a link to each
of them. -/
theorem Records.linked {g : CallGraph}
    (enrolled : ∀ d, p.isCallable d → ∃ v, g.vertex? p d = some v)
    {call : NodeId} {kind : CallKind} {scope : Walk.Scope} {e : Entry} {n : Nat}
    (records : Records (.reference p settings) g call kind scope e)
    (linked : e.report.outcome = .linked n) :
    ∃ caller reached, targets (.reference p settings) call kind scope = .ok (.targets reached) ∧
      e.links = linksTo (.reference p settings) g caller kind call reached ∧
      ∀ m ∈ reached, p.isCallable m → ∃ link ∈ e.links, ∃ v, g.vertex? p m = some v ∧
        link.target = v.declaration := by
  cases records with
  | @found caller reached failure inside result complete =>
    refine ⟨caller, reached, result, rfl, fun m member callable => ?_⟩
    obtain ⟨-, made⟩ := Attempt.of_outcome_linked linked
    -- one link at least was made, and all others differ from it in the callee only
    have some : linksTo (.reference p settings) g caller kind call reached ≠ [] := by
      rcases made with none | some
      · have counted := complete none
        intro nil
        rw [nil, List.length_nil, eq_comm, List.length_eq_zero_iff] at counted
        rw [counted] at member
        cases member
      · exact fun nil => some (by simp [nil])
    obtain ⟨other, listed⟩ := List.exists_mem_of_ne_nil _ some
    obtain ⟨target, -, madeOther⟩ := mem_linksTo.mp listed
    obtain ⟨v, found⟩ := enrolled m callable
    exact ⟨_, mem_linksTo.mpr ⟨m, member, linkOf_retarget madeOther found⟩, v, found, rfl⟩
  | noTargets _ _ => cases linked
  | unresolved _ _ _ => cases linked
  | typeLevel _ _ => cases linked

/-- In a build of a whole program, a method call that names a declaration and is linked at all is
linked to the vertex of that declaration. All its links end at vertices of that signature, so of the
name and the number of parameters of the call. -/
theorem linked_call_reaches_named (grown : p.Grown) (determine : p.SignaturesDetermine)
    {g : CallGraph} (built : build (.reference p settings) empty p.units = (g, .ok ()))
    {r : Report} {links : List Link} (member : (r, links) ∈ g.groups)
    (isMethodCall : r.kind = .methodCall) {n : Nat} (linked : r.outcome = .linked n) {d : NodeId}
    (resolved : Resolver.resolve (Hierarchy.build p) r.call = .ok (.declaration d)) :
    links.length = n ∧
      (∃ l ∈ links, ∃ v, g.vertex? p d = some v ∧ l.target = v.declaration ∧
        p.sameDeclaration l.target d) ∧
      ∀ l ∈ links, l.edge.call = r.call ∧
        ∃ v ∈ g.vertices, v.declaration = l.target ∧ p.signature? d = some v.signature ∧
          ∃ c, p.kind? r.call = some (.methodCall c) ∧
            p.hasShape c.name c.arguments.length l.target := by
  have forest := grown.forest
  obtain ⟨-, -, -, -, vertices, bySignature⟩ := build_empty forest built
  obtain ⟨scope, e, visited, isCall, records, rfl, rfl⟩ := groups_build_empty forest built member
  have sound : Sound p (addVertices p empty p.units) := (sound_empty p).addVertices p.units
  have enrolled : ∀ x, (addVertices p empty p.units).vertex? p x = g.vertex? p x := by
    intro x
    simp only [vertex?, bySignature]
  rw [isMethodCall] at isCall records
  obtain ⟨caller, reached, result, links, reaches⟩ :=
    records.linked (fun _ => vertex?_of_callable forest) linked
  obtain ⟨_, ⟨⟩, signatures, m, target, same⟩ :=
    targets_of_resolve forest visited isCall resolved result
  obtain ⟨c, kindAt, shape⟩ := (names_of_resolve isCall resolved).hasShape
  refine ⟨?_, ?_, ?_⟩
  · rw [← records.edges_eq, linked]
    rfl
  · -- the declaration found again has a vertex, which is that of the named one
    have callable : p.isCallable m := by
      have shapeM := determine.hasShape (signatures m target) shape
      obtain ⟨decl, read, -⟩ := Program.hasShape_iff.mp shapeM
      simp [Program.isCallable, read]
    obtain ⟨l, listed, v, found, ends⟩ := reaches m target callable
    rw [vertex?_congr sound (same determine)] at found
    refine ⟨l, listed, v, (enrolled d).symm.trans found, ends, ?_⟩
    rw [ends]
    exact (vertex?_spec sound found).2.1
  · intro l listed
    rw [links] at listed
    obtain ⟨t, target', made⟩ := mem_linksTo.mp listed
    obtain ⟨ofCall, v, present, ends, signedT⟩ := linkOf_ends sound made
    have signed : p.signature? d = some v.signature := (signatures t target').symm.trans signedT
    refine ⟨ofCall, v, vertices ▸ present, ends, signed, c, kindAt, ?_⟩
    have signedV := Vertex.signature?_of (sound.vertex v present)
    rw [← ends]
    exact determine.hasShape (signedV.trans signed.symm) shape

/-- The call is linked to the method it names and to the one that overrides it. -/
theorem linked_call_reaches_named_overridden :
    (⟨⟨4⟩, .methodCall, some ⟨2⟩, .linked 2⟩, overriddenLinks) ∈ overriddenGraph.groups ∧
      Resolver.resolve (Hierarchy.build overridden) ⟨4⟩ = .ok (.declaration ⟨2⟩) ∧
      ∃ l ∈ overriddenLinks, ∃ v, overriddenGraph.vertex? overridden ⟨2⟩ = some v ∧
        l.target = v.declaration ∧ overridden.sameDeclaration l.target ⟨2⟩ := by
  have member : (⟨⟨4⟩, .methodCall, some ⟨2⟩, .linked 2⟩, overriddenLinks) ∈
      overriddenGraph.groups := by decide
  have resolved : Resolver.resolve (Hierarchy.build overridden) ⟨4⟩ = .ok (.declaration ⟨2⟩) := by
    cbv
  refine ⟨member, resolved, ?_⟩
  exact (linked_call_reaches_named overridden_grown (by decide) overridden_built member rfl rfl
    resolved).2.1

end JavaCallGraph.CallGraph
