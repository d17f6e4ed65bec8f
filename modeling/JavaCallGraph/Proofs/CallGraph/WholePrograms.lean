import JavaCallGraph.Proofs.CallGraph.NamedTargets
import JavaCallGraph.Proofs.CallGraph.Repetition
import JavaCallGraph.Proofs.CallGraph.UnitSets
import JavaCallGraph.Proofs.Points
import Mathlib

/-!
A build of a whole program links a call to all its targets or to none.

Whatever a call may run is a callable, and so is whoever makes the call. Once all units are enrolled
each of them has a vertex, so what is left to fail is the point of the call, and that is the same for
every target.
-/

namespace JavaCallGraph

theorem Program.isCallable_iff_signature? {p : Program} {d : NodeId} :
    p.isCallable d ↔ (p.signature? d).isSome := by
  simp [Program.isCallable, Program.signature?]

theorem Program.isCallable_of_member {p : Program} {kind : CallableKind} {type m : NodeId}
    (member : m ∈ p.membersOf kind type) : p.isCallable m := by
  obtain ⟨-, kept⟩ := List.mem_filter.mp member
  obtain ⟨d, read, -⟩ := (Option.any_eq_true _ _).mp kept
  simp [Program.isCallable, read]

/-- Whether a callable is a method or a constructor. -/
def Program.callableKind? (p : Program) (d : NodeId) : Option CallableKind :=
  (p.callable? d).map (·.kind)

theorem Program.isCallable_of_callableKind? {p : Program} {kind : CallableKind} {d : NodeId}
    (ofKind : p.callableKind? d = some kind) : p.isCallable d := by
  obtain ⟨decl, read, -⟩ := Option.map_eq_some_iff.mp ofKind
  simp [Program.isCallable, read]

theorem Program.callableKind?_of_member {p : Program} {kind : CallableKind} {type m : NodeId}
    (member : m ∈ p.membersOf kind type) : p.callableKind? m = some kind := by
  obtain ⟨-, kept⟩ := List.mem_filter.mp member
  obtain ⟨d, read, ofKind⟩ := (Option.any_eq_true _ _).mp kept
  simp [Program.callableKind?, read, beq_iff_eq.mp ofKind]

/-- The kind of callable that a call runs. -/
def CallKind.runs : CallKind → CallableKind
  | .methodCall => .method
  | .objectCreation | .constructorInvocation => .constructor

namespace Resolver

variable {h : Hierarchy} {typeOf : NodeId → Except Error NodeId}

/-- A resolved call is answered with a report on some callable of the kind that it runs. -/
theorem resolveWith_reports {call : NodeId} {resolution : Resolution}
    (resolved : resolveWith h typeOf call = .ok resolution) :
    ∃ kind decl, h.program.callKind? call = some kind ∧
      h.program.callableKind? decl = some kind.runs ∧ report h decl = .ok resolution := by
  have constructors : ∀ {arity : Nat} {type : NodeId} {reason : String},
      (do
        let best ← bestCandidate h typeOf call (constructorCandidates h arity type)
        report h (← orUnresolved reason best)) = .ok resolution →
      ∃ decl, h.program.callableKind? decl = some .constructor ∧ report h decl = .ok resolution := by
    intro arity type reason answered
    obtain ⟨best, chosen, answered⟩ := bind_eq_ok.mp answered
    obtain ⟨decl, found, reported⟩ := bind_eq_ok.mp answered
    rw [orUnresolved_eq_ok.mp found] at chosen
    obtain ⟨member, -⟩ := List.mem_filter.mp (bestCandidate_mem chosen)
    exact ⟨decl, Program.callableKind?_of_member member, reported⟩
  obtain ⟨n, read, resolved⟩ := bind_eq_ok.mp resolved
  have kindAt : h.program.kind? call = some n.kind := by
    simp [Program.kind?, Program.node_eq_ok.mp read]
  split at resolved
  · next c form =>
    obtain ⟨_, _, decl, -, -, ⟨_, _, _, -, member, -⟩, reported⟩ := resolveMethodCall_spec resolved
    refine ⟨.methodCall, decl, ?_, Program.callableKind?_of_member member, reported⟩
    rw [Program.callKind?, kindAt, form]
    rfl
  · next c form =>
    obtain ⟨type, -, resolved⟩ := bind_eq_ok.mp resolved
    obtain ⟨decl, ofKind, reported⟩ := constructors resolved
    refine ⟨.objectCreation, decl, ?_, ofKind, reported⟩
    rw [Program.callKind?, kindAt, form]
    rfl
  · next c form =>
    obtain ⟨current, -, resolved⟩ := bind_eq_ok.mp resolved
    have answered : ∃ decl, h.program.callableKind? decl = some .constructor ∧
        report h decl = .ok resolution := by
      split at resolved
      · exact constructors resolved
      · obtain ⟨type, -, resolved⟩ := bind_eq_ok.mp resolved
        exact constructors resolved
    obtain ⟨decl, ofKind, reported⟩ := answered
    refine ⟨.constructorInvocation, decl, ?_, ofKind, reported⟩
    rw [Program.callKind?, kindAt, form]
    rfl
  · cases resolved

end Resolver

/-- Whether a node is a callable whose qualified signature has the given key. -/
def Program.hasKey (p : Program) (key : String) (d : NodeId) : Bool :=
  (p.qualifiedSignature? d).any (·.key = key)

theorem Program.isCallable_of_hasKey {p : Program} {key : String} {d : NodeId}
    (keyed : p.hasKey key d) : p.isCallable d := by
  obtain ⟨s, signed, -⟩ := (Option.any_eq_true _ _).mp keyed
  obtain ⟨decl, callable, -⟩ := Option.bind_eq_some_iff.mp signed
  simp [Program.isCallable, callable]

/-- A look-up by signature finds the first callable with the key of the signature, in the order of
the program. -/
theorem Hierarchy.lookupBySignature?_build (p : Program) (signature : QualifiedSignature) :
    (Hierarchy.build p).lookupBySignature? signature =
      (p.allUnder p.units).find? (p.hasKey signature.key) := by
  rw [lookupBySignature?, Hierarchy.build, Index.get_ofPairs]
  induction p.allUnder p.units with
  | nil => rfl
  | cons d rest ih =>
    rw [List.filterMap_cons, List.find?_cons, Program.hasKey]
    cases signed : p.qualifiedSignature? d with
    | none => simpa using ih
    | some s =>
      by_cases same : s.key = signature.key
      · simp [same]
      · simpa [same] using ih

namespace CallGraph

variable {p : Program} {settings : Settings} {s : Basis} {g : CallGraph}
  {call caller : NodeId} {kind : CallKind} {scope scope' : Walk.Scope} {reached : List NodeId}

/-! ### Who calls whom -/

/-- Of the scope, the search for targets reads the innermost type only. -/
theorem targets_congr (same : scope.currentType? = scope'.currentType?) :
    targets s call kind scope = targets s call kind scope' := by
  have types : ∀ form, receiverTypes s call scope form = receiverTypes s call scope' form := by
    intro form
    cases form <;> simp only [receiverTypes, currentType, same]
  simp only [targets, dispatch, types]

theorem isCallable_of_declarationOf {resolution : Resolution} {d : NodeId}
    (declared : ∀ d, resolution = .declaration d → p.isCallable d)
    (found : declarationOf (.reference p settings) kind resolution = .ok d) : p.isCallable d := by
  cases resolution with
  | declaration decl =>
    cases found
    exact declared d rfl
  | signature signature =>
    rw [declarationOf] at found
    split at found
    · cases found
    · have first := Resolver.orUnresolved_eq_ok.mp found
      have keyed := (Hierarchy.lookupBySignature?_build p signature).symm.trans first
      exact Program.isCallable_of_hasKey (List.find?_some keyed)

/-- Whatever a call may run is a callable. -/
theorem isCallable_of_targets
    (found : targets (.reference p settings) call kind scope = .ok (.targets reached)) :
    ∀ m ∈ reached, p.isCallable m := by
  obtain ⟨resolution, resolved, found⟩ := bind_eq_ok.mp found
  obtain ⟨d, declared, found⟩ := bind_eq_ok.mp found
  have callable : p.isCallable d := by
    apply isCallable_of_declarationOf _ declared
    rintro d' rfl
    obtain ⟨_, decl, -, ofKind, reported⟩ := Resolver.resolveWith_reports resolved
    rw [Resolver.eq_of_report reported]
    exact Program.isCallable_of_callableKind? ofKind
  intro m member
  cases kind with
  | methodCall =>
    have widened := dispatch_widened found
    rw [Program.isCallable_iff_signature?, widened.signature? member]
    exact Program.isCallable_iff_signature?.mp callable
  | objectCreation =>
    cases found
    rwa [List.mem_singleton.mp member]
  | constructorInvocation =>
    cases found
    rwa [List.mem_singleton.mp member]

theorem isCallable_of_opening {n : NodeId} {inner : Walk.Scope}
    (current : ∀ d, scope.currentCallable? = some d → s.program.isCallable d)
    (opened : inner ∈ scope.openings s.program n (linkRule s n scope)) {d : NodeId}
    (inside : inner.currentCallable? = some d) : s.program.isCallable d := by
  by_cases isField : s.program.isField n
  · obtain ⟨field, kindAt⟩ := Program.isField_iff.mp isField
    cases outer : scope.currentCallable? with
    | some caller =>
      rw [openings_field_inside kindAt (by simp [outer])] at opened
      cases opened
    | none =>
      rw [openings_field_outside kindAt outer] at opened
      split at opened
      · rw [List.mem_singleton.mp opened, outer] at inside
        cases inside
      · next first later run =>
        obtain ⟨-, type, -, constructors⟩ := runners_eq_cons run
        have member : d ∈ s.program.constructorsOf type := by
          rw [constructors]
          rcases List.mem_cons.mp opened with rfl | repeated
          · cases inside
            exact List.mem_cons_self
          · obtain ⟨other, listed, rfl⟩ := List.mem_map.mp repeated
            cases inside
            exact List.mem_cons_of_mem _ listed
        exact Program.isCallable_of_member member
  · rw [openings_other isField, List.mem_singleton] at opened
    rw [opened, currentCallable?_below] at inside
    split at inside
    · next callable =>
      cases inside
      exact callable
    · exact current d inside

/-- Whoever makes a call is a callable. -/
theorem isCallable_of_currentCallable? {units : List NodeId}
    (visited : (call, scope) ∈ sites s units) (inside : scope.currentCallable? = some caller) :
    s.program.isCallable caller := by
  refine Walk.visits_forall (motive := fun _ scope =>
    ∀ d, scope.currentCallable? = some d → s.program.isCallable d) ?_ ?_ _ visited caller inside
  · intro n scope current inner opened c _ d
    exact isCallable_of_opening current opened
  · intro r _ d none
    cases none

/-! ### One point for all targets -/

/-- A link for a call at a point, from the vertex of the caller to that of a target. -/
def Leads (p : Program) (g : CallGraph) (caller : NodeId) (edge : Edge) (target : NodeId)
    (link : Link) : Prop :=
  ∃ tail head, g.vertex? p caller = some tail ∧ g.vertex? p target = some head ∧
    link = { source := tail.declaration, target := head.declaration, edge }

theorem leads_congr {g' : CallGraph} (same : ∀ d, g.vertex? p d = g'.vertex? p d) :
    Leads p g = Leads p g' := by
  funext caller edge target link
  simp only [Leads, same]

theorem edge_of_containing (forest : p.Forest) (isCall : p.callKind? call = some kind)
    {point : ProgramPoint} (located : (PointIndex.build p).containing caller call = .ok point) :
    Edge.of p kind call point = .ok { kind, call, point } := by
  obtain ⟨-, above, -⟩ := PointIndex.containing_build forest located
  obtain ⟨k, kindAt, form⟩ := Option.bind_eq_some_iff.mp isCall
  obtain ⟨n, read, rfl⟩ := Option.map_eq_some_iff.mp kindAt
  have inside : p.contains point.node call := by
    rcases List.mem_cons.mp above with same | higher
    · simp [Program.contains, same]
    · simp [Program.contains, higher]
  simp [Edge.of, Program.node_eq_ok.mpr read, bind, Except.bind, form, inside]

/-- With a vertex for everyone, a link fails for the lack of a point only. -/
theorem linkOf_enrolled (settings : Settings) (forest : p.Forest)
    (enrolled : ∀ d, p.isCallable d → ∃ v, g.vertex? p d = some v)
    (isCall : p.callKind? call = some kind) (calls : p.isCallable caller) {target : NodeId}
    (called : p.isCallable target) :
    match (PointIndex.build p).containing caller call with
    | .ok point => ∃ link, linkOf (.reference p settings) g caller target kind call = .ok link ∧
        Leads p g caller { kind, call, point } target link
    | .error e => linkOf (.reference p settings) g caller target kind call = .error e := by
  obtain ⟨tail, leaves⟩ := enrolled caller calls
  obtain ⟨head, enters⟩ := enrolled target called
  split
  · next point located =>
    have edge := edge_of_containing forest isCall located
    exact ⟨_, linkOf_eq_ok.mpr ⟨point, _, tail, head, located, edge, leaves, enters, rfl⟩,
      tail, head, leaves, enters, rfl⟩
  · next e unlocated =>
    have failed : (Basis.reference p settings).facts.containingPoint caller call = .error e :=
      unlocated
    rw [linkOf, failed]
    rfl

/-- Every link that is made is counted. -/
theorem linked_tally (s : Basis) (g : CallGraph) (caller : NodeId) (kind : CallKind) (call : NodeId)
    (reached : List NodeId) (attempt : Attempt) :
    (reached.foldl (tally s g caller kind call) attempt).linked =
      attempt.linked + (linksTo s g caller kind call reached).length := by
  induction reached generalizing attempt with
  | nil => rfl
  | cons target rest ih =>
    rw [List.foldl_cons, ih, tally]
    cases made : linkOf s g caller target kind call with
    | ok link =>
      rw [linksTo_cons_ok made, List.length_cons]
      dsimp only
      omega
    | error e => rw [linksTo_cons_error made]

/-- If every target can be linked, all are. -/
theorem tally_linked (attempt : Attempt) {Made : NodeId → Link → Prop}
    (links : ∀ t ∈ reached, ∃ link, linkOf s g caller t kind call = .ok link ∧ Made t link) :
    reached.foldl (tally s g caller kind call) attempt =
        { attempt with linked := attempt.linked + reached.length } ∧
      List.Forall₂ Made reached (linksTo s g caller kind call reached) := by
  induction reached generalizing attempt with
  | nil => exact ⟨rfl, .nil⟩
  | cons target rest ih =>
    obtain ⟨link, made, leads⟩ := links target List.mem_cons_self
    obtain ⟨counted, others⟩ := ih { attempt with linked := attempt.linked + 1 }
      fun t later => links t (List.mem_cons_of_mem _ later)
    rw [List.foldl_cons, tally, made, linksTo_cons_ok made]
    refine ⟨?_, .cons leads others⟩
    rw [counted, List.length_cons, Nat.add_assoc, Nat.add_comm 1]

/-- If no target can be linked, and all for the same reason, that reason is noted. -/
theorem tally_failed (attempt : Attempt) {e : Error}
    (fails : ∀ t ∈ reached, linkOf s g caller t kind call = .error e)
    (pending : reached ≠ [] ∨ attempt.failure = some e) :
    reached.foldl (tally s g caller kind call) attempt = { attempt with failure := some e } ∧
      linksTo s g caller kind call reached = [] := by
  induction reached generalizing attempt with
  | nil =>
    have noted := pending.resolve_left (· rfl)
    exact ⟨by rw [List.foldl_nil, ← noted], rfl⟩
  | cons target rest ih =>
    have failed := fails target List.mem_cons_self
    obtain ⟨noted, none⟩ := ih { attempt with failure := some e }
      (fun t later => fails t (List.mem_cons_of_mem _ later)) (.inr rfl)
    rw [List.foldl_cons, tally, failed, linksTo_cons_error failed]
    exact ⟨noted, none⟩

/-- With a vertex for everyone, a call is linked to each of its targets from the point that holds
it, or dropped for the lack of a point. -/
theorem entryIn_enrolled (forest : p.Forest)
    (enrolled : ∀ d, p.isCallable d → ∃ v, g.vertex? p d = some v)
    (isCall : p.callKind? call = some kind) (calls : p.isCallable caller)
    (found : targets (.reference p settings) call kind scope = .ok (.targets reached)) :
    let e := entryIn (.reference p settings) g caller call kind scope
    match (PointIndex.build p).containing caller call with
    | .ok point => e.report.outcome = .linked reached.length ∧
        List.Forall₂ (Leads p g caller { kind, call, point }) reached e.links
    | .error why => e.report.outcome = .dropped why.message ∧ e.links = [] := by
  have makes := fun t target => linkOf_enrolled settings forest enrolled isCall calls
    (isCallable_of_targets found t target)
  simp only [entryIn, found]
  cases place : (PointIndex.build p).containing caller call with
  | ok point =>
    simp only [place] at makes
    obtain ⟨counted, each⟩ := tally_linked {} makes
    rw [counted, Nat.zero_add]
    exact ⟨rfl, each⟩
  | error why =>
    simp only [place] at makes
    obtain ⟨noted, none⟩ := tally_failed {} makes (.inl (targets_apart found).1)
    rw [noted]
    exact ⟨rfl, none⟩

/-! ### Whole programs -/

/-- An entry is about its call and its caller, and counts its links. -/
theorem entryOf_spec (s : Basis) (g : CallGraph) (call : NodeId) (kind : CallKind)
    (scope : Walk.Scope) :
    let e := entryOf s g call kind scope
    e.report.call = call ∧ e.report.kind = kind ∧ e.report.caller = scope.currentCallable? ∧
      e.report.outcome.edges = e.links.length := by
  unfold entryOf
  split
  · next caller inside =>
    rw [inside]
    unfold entryIn
    split
    · refine ⟨rfl, rfl, rfl, ?_⟩
      rw [Attempt.edges_outcome, linked_tally, Nat.zero_add]
    · exact ⟨rfl, rfl, rfl, rfl⟩
    · exact ⟨rfl, rfl, rfl, rfl⟩
  · next outside =>
    rw [outside]
    exact ⟨rfl, rfl, rfl, rfl⟩

/-- Each report of a build stands for a visit and, with its links, is what that visit adds. -/
theorem groups_entries (forest : s.program.Forest) {units : List NodeId}
    (built : build s empty units = (g, .ok ())) {r : Report} {links : List Link}
    (member : (r, links) ∈ g.groups) :
    ∃ scope, (r.call, scope) ∈ sites s units ∧ s.program.callKind? r.call = some r.kind ∧
      r.caller = scope.currentCallable? ∧
        entryOf s (addVertices s.program empty units) r.call r.kind scope = ⟨r, links⟩ := by
  obtain ⟨linked, reports⟩ := build_entries forest built
  generalize addVertices s.program empty units = vertices at linked reports ⊢
  have site : ∀ e ∈ (sites s units).flatMap (entriesAt s vertices), ∃ call kind scope,
      (call, scope) ∈ sites s units ∧ s.program.callKind? call = some kind ∧
        e = entryOf s vertices call kind scope := by
    intro e listed
    obtain ⟨⟨call, scope⟩, visited, here⟩ := List.mem_flatMap.mp listed
    unfold entriesAt at here
    split at here
    · next kind isCall => exact ⟨call, kind, scope, visited, isCall, List.mem_singleton.mp here⟩
    · cases here
  have counted : ∀ e ∈ (sites s units).flatMap (entriesAt s vertices),
      e.report.outcome.edges = e.links.length := by
    intro e listed
    obtain ⟨call, kind, scope, -, -, rfl⟩ := site e listed
    exact (entryOf_spec s vertices call kind scope).2.2.2
  rw [groups, reports, linked, ← List.flatMap_assoc, ← List.map_flatMap, deal_entries counted]
    at member
  obtain ⟨e, listed, same⟩ := List.mem_map.mp member
  cases same
  obtain ⟨call, kind, scope, visited, isCall, rfl⟩ := site e listed
  obtain ⟨ofCall, ofKind, byCaller, -⟩ := entryOf_spec s vertices call kind scope
  rw [ofCall, ofKind]
  exact ⟨scope, visited, isCall, byCaller, rfl⟩

theorem vertex?_build (forest : s.program.Forest) {units : List NodeId}
    (built : build s empty units = (g, .ok ())) (d : NodeId) :
    g.vertex? s.program d = (addVertices s.program empty units).vertex? s.program d := by
  obtain ⟨-, -, -, -, -, bySignature⟩ := build_empty forest built
  simp only [vertex?, bySignature]

/-- A report that has a caller, with its links, is the entry of a visit inside that caller. -/
theorem entry_of_group (forest : p.Forest)
    (built : build (.reference p settings) empty p.units = (g, .ok ())) {r : Report}
    {links : List Link} (member : (r, links) ∈ g.groups) (called : r.caller = some caller) :
    ∃ scope, (r.call, scope) ∈ sites (.reference p settings) p.units ∧
      p.callKind? r.call = some r.kind ∧ p.isCallable caller ∧
        entryIn (.reference p settings) (addVertices p empty p.units) caller r.call r.kind scope =
          ⟨r, links⟩ := by
  obtain ⟨scope, visited, isCall, byCaller, entry⟩ := groups_entries forest built member
  have inside : scope.currentCallable? = some caller := byCaller.symm.trans called
  rw [entryOf, inside] at entry
  exact ⟨scope, visited, isCall, isCallable_of_currentCallable? visited inside, entry⟩

/-- In a build of a whole program, a call with targets is linked to each of them, in turn and from
the point that holds it, or, if the caller has no such point, to none. Nothing is left out for the
lack of a vertex. -/
theorem whole_build_keeps_targets (grown : p.Grown)
    (built : build (.reference p settings) empty p.units = (g, .ok ())) {r : Report}
    {links : List Link} (member : (r, links) ∈ g.groups) (called : r.caller = some caller)
    (visited : (r.call, scope) ∈ sites (.reference p settings) p.units)
    (found : targets (.reference p settings) r.call r.kind scope = .ok (.targets reached)) :
    (∀ d ∈ caller :: reached, (g.vertex? p d).isSome) ∧
      match (PointIndex.build p).containing caller r.call with
      | .ok point => r.outcome = .linked reached.length ∧
          List.Forall₂ (Leads p g caller { kind := r.kind, call := r.call, point }) reached links
      | .error e => r.outcome = .dropped e.message ∧ links = [] := by
  have forest := grown.forest
  have vertices := vertex?_build forest built
  obtain ⟨scope', visited', isCall, calls, entry⟩ := entry_of_group forest built member called
  -- the visit that made the report found the same targets as the given one
  have sameType : scope'.currentType? = scope.currentType? := by
    rw [currentType?_of_visited forest (List.Subset.refl _) visited,
      currentType?_of_visited forest (List.Subset.refl _) visited']
  rw [← targets_congr sameType] at found
  have linked := entryIn_enrolled forest (fun _ => vertex?_of_callable forest) isCall calls found
  dsimp only at linked
  rw [entry, ← leads_congr vertices] at linked
  refine ⟨?_, linked⟩
  intro d listed
  apply Option.isSome_iff_exists.mpr
  rw [vertices]
  apply vertex?_of_callable forest
  rcases List.mem_cons.mp listed with rfl | target
  · exact calls
  · exact isCallable_of_targets found d target

theorem targets_overridden :
    targets (.reference overridden { zeroTargets := .strict }) ⟨4⟩ .methodCall
      { types := [⟨1⟩], callables := [⟨2⟩] } = .ok (.targets [⟨2⟩, ⟨6⟩]) := by
  cbv

theorem visited_overridden :
    (⟨4⟩, { types := [⟨1⟩], callables := [⟨2⟩] }) ∈
      sites (.reference overridden { zeroTargets := .strict }) overridden.units := by
  apply List.mem_of_getElem? (i := 4)
  cbv

/-- The call on `this` has two targets, and is linked to both from its statement. -/
theorem whole_build_keeps_targets_overridden :
    (⟨⟨4⟩, .methodCall, some ⟨2⟩, .linked 2⟩, overriddenLinks) ∈ overriddenGraph.groups ∧
      (∀ d ∈ [⟨2⟩, ⟨2⟩, ⟨6⟩], (overriddenGraph.vertex? overridden d).isSome) ∧
      List.Forall₂
        (Leads overridden overriddenGraph ⟨2⟩
          { kind := .methodCall, call := ⟨4⟩, point := ⟨0, ⟨2⟩, ⟨3⟩⟩ }) [⟨2⟩, ⟨6⟩]
        overriddenLinks := by
  have member : (⟨⟨4⟩, .methodCall, some ⟨2⟩, .linked 2⟩, overriddenLinks) ∈
      overriddenGraph.groups := by decide
  have located : (PointIndex.build overridden).containing ⟨2⟩ ⟨4⟩ = .ok ⟨0, ⟨2⟩, ⟨3⟩⟩ := by cbv
  have kept := whole_build_keeps_targets overridden_grown overridden_built member rfl
    visited_overridden targets_overridden
  simp only [located] at kept
  exact ⟨member, kept.1, kept.2.2⟩

end CallGraph

end JavaCallGraph
