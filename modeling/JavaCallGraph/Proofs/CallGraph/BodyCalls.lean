import JavaCallGraph.Proofs.CallGraph.WholePrograms
import JavaCallGraph.Proofs.Java.Exposure

/-!
Calls in the bodies of callables.

A call that belongs to a callable lies in a statement of it, unless it stands in a switch: a switch is
no statement, so what it switches on and its labels are left without one. A call in a statement has a
point, and then a build of the whole program does not drop it.
-/

namespace JavaCallGraph

namespace Program

variable {p : Program} {c d : NodeId}

theorem exposes?_of_isCallable {n : NodeId} (callable : p.isCallable n) :
    (p.kind? n).bind (·.exposes?) = some true := by
  obtain ⟨decl, read⟩ := Option.isSome_iff_exists.mp callable
  obtain ⟨k, kind, isCallable⟩ := Option.bind_eq_some_iff.mp read
  cases k with
  | callable => rw [kind]; rfl
  | _ => cases isCallable

theorem exposes?_of_isStatement {n : NodeId} (statement : p.isStatement n) :
    (p.kind? n).bind (·.exposes?) = some false := by
  unfold isStatement at statement
  split at statement
  · next kind => rw [kind]; rfl
  · cases statement

/-- Only declarations and statements decide whether the calls below them are exposed. -/
theorem exposes?_eq_none {n : NodeId} (plain : ¬ p.isDeclaration n) (other : ¬ p.isStatement n) :
    (p.kind? n).bind (·.exposes?) = none := by
  cases kind : p.kind? n with
  | none => rfl
  | some k =>
    cases k with
    | callable | type => simp [isDeclaration, kind, NodeKind.isDeclaration] at plain
    | statement => simp [isStatement, kind] at other
    | _ => rfl

/-- A node of a callable that is not exposed lies in a statement of it. -/
theorem Forest.statement_between (forest : p.Forest) (owned : p.owner? c = some d)
    (callable : p.isCallable d) (sheltered : p.exposed c = false) :
    ∃ x ∈ p.ancestors c, p.isStatement x ∧ p.owner? x = some d := by
  induction c using forest.climb with
  | step c ih =>
    cases above : p.parent? c with
    | none =>
      rw [owner?, ancestors_root above] at owned
      cases owned
    | some q =>
      rw [forest.ancestors_child above]
      rw [forest.owner?_child above] at owned
      rw [forest.exposed_child above, exposes_eq] at sheltered
      by_cases declares : p.isDeclaration q
      · rw [if_pos declares] at owned
        cases owned
        rw [exposes?_of_isCallable callable] at sheltered
        cases sheltered
      · rw [if_neg declares] at owned
        by_cases statement : p.isStatement q
        · exact ⟨q, List.mem_cons_self, statement, owned⟩
        · rw [exposes?_eq_none declares statement] at sheltered
          obtain ⟨x, higher, found⟩ := ih q above owned sheltered
          exact ⟨x, List.mem_cons_of_mem _ higher, found⟩

/-- An exposed node of a callable lies in no statement of it. -/
theorem Forest.no_statement_between (forest : p.Forest) (owned : p.owner? c = some d)
    (exposed : p.exposed c) {x : NodeId} (higher : x ∈ p.ancestors c) (statement : p.isStatement x) :
    d ∉ p.ancestors x := by
  induction c using forest.climb with
  | step c ih =>
    cases above : p.parent? c with
    | none =>
      rw [owner?, ancestors_root above] at owned
      cases owned
    | some q =>
      rw [forest.ancestors_child above] at higher
      rw [forest.owner?_child above] at owned
      rw [forest.exposed_child above, exposes_eq] at exposed
      by_cases declares : p.isDeclaration q
      · rw [if_pos declares] at owned
        cases owned
        rcases List.mem_cons.mp higher with rfl | outside
        · exact absurd declares (not_isDeclaration_of_isStatement statement)
        · exact fun inside => Nat.lt_asymm (forest.lt_of_mem_ancestors inside)
            (forest.lt_of_mem_ancestors outside)
      · rw [if_neg declares] at owned
        by_cases sheltering : p.isStatement q
        · rw [exposes?_of_isStatement sheltering] at exposed
          cases exposed
        · rw [exposes?_eq_none declares sheltering] at exposed
          rcases List.mem_cons.mp higher with rfl | further
          · exact absurd statement sheltering
          · exact ih q above owned exposed further

/-- The owner of a node that is a callable is the innermost callable around it. -/
theorem enclosingCallable?_of_owner? (owned : p.owner? c = some d) (callable : p.isCallable d) :
    p.enclosingCallable? c = some d := by
  obtain ⟨-, inner, outer, line, none⟩ := List.find?_eq_some_iff_append.mp owned
  refine List.find?_eq_some_iff_append.mpr ⟨callable, inner, outer, line, fun a lower => ?_⟩
  have plain := none a lower
  simp only [Bool.not_eq_true', Bool.eq_false_iff] at plain ⊢
  exact fun isCallable => plain (isDeclaration_of_isCallable isCallable)

end Program

namespace CallGraph

variable {p : Program} {settings : Settings} {g : CallGraph} {c d : NodeId}

/-- A call in a callable is visited inside that callable. -/
theorem currentCallable?_of_owner? (grown : p.Grown) {scope : Walk.Scope}
    (visited : (c, scope) ∈ sites (.reference p settings) p.units) (owned : p.owner? c = some d)
    (callable : p.isCallable d) : scope.currentCallable? = some d := by
  have forest := grown.forest
  have some : Walk.scopesAt (sites (.reference p settings) p.units) c ≠ [] :=
    List.ne_nil_of_mem (Walk.mem_scopesAt.mpr visited)
  have distinct : p.units.Nodup := forest.units_sorted.imp fun earlier same =>
    Nat.ne_of_lt earlier (congrArg NodeId.index same)
  obtain ⟨first, repeats, scopes, met⟩ :=
    met_of_visited forest (List.Subset.refl _) distinct some
  obtain ⟨inside, once⟩ := met.caller d (Program.enclosingCallable?_of_owner? owned callable)
  have member := Walk.mem_scopesAt.mpr visited
  rw [scopes, once, List.mem_singleton] at member
  rw [member]
  exact inside

/-- A call for which there is a point is not dropped. -/
theorem Records.not_dropped {kind : CallKind} {scope : Walk.Scope} {e : Entry} {point : ProgramPoint}
    (records : Records (.reference p settings) g c kind scope e) (forest : p.Forest)
    (enrolled : ∀ d, p.isCallable d → ∃ v, g.vertex? p d = some v)
    (isCall : p.callKind? c = some kind) (inside : scope.currentCallable? = some d)
    (callable : p.isCallable d) (located : (PointIndex.build p).containing d c = .ok point)
    (reason : String) : e.report.outcome ≠ .dropped reason := by
  intro dropped
  have edges := records.edges_eq
  rw [dropped] at edges
  cases records with
  | @found caller reached failure inside' found complete =>
    cases inside.symm.trans inside'
    -- the point serves every target, and there is a target
    obtain ⟨target, called⟩ := List.exists_mem_of_ne_nil _ (targets_apart found).1
    have makes := linkOf_enrolled settings forest enrolled isCall callable
      (isCallable_of_targets found target called)
    simp only [located] at makes
    obtain ⟨link, made, -⟩ := makes
    have member := mem_linksTo.mpr ⟨target, called, made⟩
    exact List.ne_nil_of_mem member (List.length_eq_zero_iff.mp edges.symm)
  | noTargets => cases dropped
  | unresolved => cases dropped
  | typeLevel => cases dropped

/-- Whatever becomes of a build of the whole program, a call for which the callable around it has a
point is not dropped. -/
theorem not_dropped_of_located (grown : p.Grown) {result : Except Error Unit}
    (built : build (.reference p settings) empty p.units = (g, result)) (owned : p.owner? c = some d)
    (callable : p.isCallable d) {point : ProgramPoint}
    (located : (PointIndex.build p).containing d c = .ok point) {r : Report} (reported : r ∈ g.reports)
    (about : r.call = c) (reason : String) : r.outcome ≠ .dropped reason := by
  have step := build_step (s := .reference p settings) grown.forest empty p.units
  rw [built] at step
  rcases step.mem_reports reported with old | ⟨c', kind, scope, e, visited, isCall, records, rfl⟩
  · cases old
  · have same : c' = c := records.call_eq.symm.trans about
    subst same
    exact records.not_dropped grown.forest (fun _ => vertex?_of_callable grown.forest) isCall
      (currentCallable?_of_owner? grown visited owned callable) callable located reason

end CallGraph

/-! ### Loaded programs -/

/-- A call of a loaded program that is written in a switch, and in no statement of the callable that
it belongs to. -/
def WrittenInSwitch (sources : List Source) (p : Program) (c : NodeId) : Prop :=
  ∃ s ∈ sources, ∃ root, Java.Syntax.read? s.text = some root ∧
    ∃ n, Java.Located.Within { node := root } n ∧ ∃ kind, Java.callKinds.lookup n.kind = some kind ∧
      p.sighting? c = some ⟨some s.path, kind, n.extent.span, true⟩ ∧
        Java.Syntax.exposes n.chain ∧ Java.Syntax.inSwitch n.chain

theorem WrittenInSwitch.exposed {sources : List Source} {p : Program} {c : NodeId}
    (written : WrittenInSwitch sources p c) : p.exposed c := by
  obtain ⟨_, _, _, _, _, _, _, _, shown, _⟩ := written
  obtain ⟨kind, -, same⟩ := Option.map_eq_some_iff.mp shown
  exact congrArg Sighting.exposed same

/-- In a loaded program only calls in switches are exposed. -/
theorem writtenInSwitch_of_exposed {sources : List Source} {p : Program}
    (loaded : Program.ofSources sources = .ok p) {c : NodeId} {kind : CallKind}
    (isCall : p.callKind? c = some kind) (exposed : p.exposed c) : WrittenInSwitch sources p c := by
  have shown := Program.sighting?_of_call isCall
  obtain ⟨s, among, root, read, x, alone⟩ := Program.exists_of_sighting? loaded shown
  obtain ⟨file, grammatical⟩ := Java.Syntax.fitsGrammar_of_read? read
  have regular : Java.Located.Regular { node := root } :=
    ⟨grammatical, Java.Syntax.fits_bodies_of_read? read⟩
  obtain ⟨kind', isCall', same⟩ := Option.map_eq_some_iff.mp alone
  obtain ⟨n, inside, written⟩ := Java.exists_writtenAt .empty file regular (Nat.zero_le x.index)
    (Option.ne_none_iff_exists'.mpr ⟨kind', isCall'⟩)
  rw [Java.pathOf?_lowerSource (Program.has_of_callKind? isCall'), written.span,
    written.exposed] at same
  have inTheOpen : Java.Syntax.exposes n.chain := (congrArg Sighting.exposed same).trans exposed
  have inSwitch : Java.Syntax.inSwitch n.chain := by
    simpa [Java.Syntax.strands, inTheOpen] using written.covered
  refine ⟨s, among, root, read, n, inside, kind', written.kind.trans isCall', ?_, inTheOpen, inSwitch⟩
  rw [shown, ← same, inTheOpen]

namespace CallGraph

/-- A call of a loaded program that belongs to a callable lies in a statement of the callable if it is
not one of those in switches; it then has a point, and no build of the whole program drops it. -/
theorem body_calls_anchored {sources : List Source} {p : Program}
    (loaded : Program.ofSources sources = .ok p) {c d : NodeId} {kind : CallKind}
    (isCall : p.callKind? c = some kind) (owned : p.owner? c = some d) (callable : p.isCallable d) :
    ((∃ x ∈ p.ancestors c, p.isStatement x ∧ d ∈ p.ancestors x) ↔ ¬ WrittenInSwitch sources p c) ∧
      (¬ WrittenInSwitch sources p c →
        (∃ point, (PointIndex.build p).containing d c = .ok point) ∧
        ∀ settings g result, build (.reference p settings) empty p.units = (g, result) →
          ∀ r ∈ g.reports, r.call = c → ∀ reason, r.outcome ≠ .dropped reason) := by
  have grown : p.Grown := Program.grown_ofSourcesBy loaded
  have sheltered : ¬ WrittenInSwitch sources p c →
      ∃ x ∈ p.ancestors c, p.isStatement x ∧ p.owner? x = some d := by
    intro elsewhere
    apply grown.forest.statement_between owned callable
    rw [Bool.eq_false_iff]
    exact fun exposed => elsewhere (writtenInSwitch_of_exposed loaded isCall exposed)
  refine ⟨⟨?_, fun elsewhere => ?_⟩, fun elsewhere => ?_⟩
  · rintro ⟨x, above, statement, inside⟩ written
    exact grown.forest.no_statement_between owned written.exposed above statement inside
  · obtain ⟨x, above, statement, inside⟩ := sheltered elsewhere
    exact ⟨x, above, statement, List.mem_of_find?_eq_some inside⟩
  · obtain ⟨x, above, statement, inside⟩ := sheltered elsewhere
    obtain ⟨point, located⟩ := PointIndex.exists_containing grown.forest callable
      (Program.has_of_callKind? isCall) above statement inside
    refine ⟨⟨point, located⟩, ?_⟩
    intro settings g result built r reported about
    exact not_dropped_of_located grown built owned callable located reported about

/-- The call of a method that calls itself in a statement. -/
theorem body_calls_anchored_selfCall :
    ∃ p, Program.ofSources [.selfCall] = .ok p ∧ p.callKind? ⟨4⟩ = some .methodCall ∧
      p.owner? ⟨4⟩ = some ⟨2⟩ ∧ p.isCallable ⟨2⟩ ∧ ¬ WrittenInSwitch [.selfCall] p ⟨4⟩ ∧
        (∃ point, (PointIndex.build p).containing ⟨2⟩ ⟨4⟩ = .ok point) ∧
        ∀ settings g result, build (.reference p settings) empty p.units = (g, result) →
          ∀ r ∈ g.reports, r.call = ⟨4⟩ → ∀ reason, r.outcome ≠ .dropped reason := by
  obtain ⟨hash, loaded⟩ := Program.ofSources_selfCall
  let p := Source.selfCallProgram .source hash
  have isCall : p.callKind? ⟨4⟩ = some .methodCall := by cbv
  have owned : p.owner? ⟨4⟩ = some ⟨2⟩ := by cbv
  have callable : p.isCallable ⟨2⟩ := by cbv
  have line : p.ancestors ⟨4⟩ = [⟨3⟩, ⟨2⟩, ⟨1⟩, ⟨0⟩] := by cbv
  have statement : p.isStatement ⟨3⟩ := by cbv
  have inside : p.owner? ⟨3⟩ = some ⟨2⟩ := by cbv
  obtain ⟨sheltered, anchored⟩ := body_calls_anchored loaded isCall owned callable
  have elsewhere := sheltered.mp
    ⟨⟨3⟩, line ▸ List.mem_cons_self, statement, List.mem_of_find?_eq_some inside⟩
  exact ⟨p, loaded, isCall, owned, callable, elsewhere, anchored elsewhere⟩

end CallGraph

/-! ### A call in a switch -/

namespace Source

/-- A method that switches on a call of itself. -/
def switchCall : Source where
  path := "A.java"
  text := "class A { void m() { switch (m()) { } } }"

def switchCallTree : Java.Syntax :=
  .node "program" none true ⟨⟨0, 0⟩, ⟨0, 41⟩⟩
    [.node "class_declaration" none true ⟨⟨0, 0⟩, ⟨0, 41⟩⟩
      [.node "identifier" (some "name") true ⟨⟨0, 6⟩, ⟨0, 7⟩⟩ [],
        .node "class_body" (some "body") true ⟨⟨0, 8⟩, ⟨0, 41⟩⟩
          [.node "method_declaration" none true ⟨⟨0, 10⟩, ⟨0, 39⟩⟩
            [.node "void_type" (some "type") true ⟨⟨0, 10⟩, ⟨0, 14⟩⟩ [],
              .node "identifier" (some "name") true ⟨⟨0, 15⟩, ⟨0, 16⟩⟩ [],
              .node "formal_parameters" (some "parameters") true ⟨⟨0, 16⟩, ⟨0, 18⟩⟩ [],
              .node "block" (some "body") true ⟨⟨0, 19⟩, ⟨0, 39⟩⟩
                [.node "switch_expression" none true ⟨⟨0, 21⟩, ⟨0, 37⟩⟩
                  [.node "parenthesized_expression" (some "condition") true ⟨⟨0, 28⟩, ⟨0, 33⟩⟩
                    [.node "method_invocation" none true ⟨⟨0, 29⟩, ⟨0, 32⟩⟩
                      [.node "identifier" (some "name") true ⟨⟨0, 29⟩, ⟨0, 30⟩⟩ [],
                        .node "argument_list" (some "arguments") true ⟨⟨0, 30⟩, ⟨0, 32⟩⟩ []]],
                    .node "switch_block" (some "body") true ⟨⟨0, 34⟩, ⟨0, 37⟩⟩ []]]]]]]

set_option maxRecDepth 6000 in
theorem read?_switchCall :
    Java.Syntax.read? "class A { void m() { switch (m()) { } } }" = some switchCallTree := by cbv

end Source

namespace Program

def switchCall (hash : String) : Program :=
  Program.empty
    |>.addUnit { path := "A.java", contentHash := hash }
    |>.append ⟨0⟩ (.type { kind := .classType, name := "A" }) ⟨1, 1, 0, 41⟩
    |>.append ⟨1⟩ (.callable { kind := .method, name := "m", returnType := some "void" })
      ⟨1, 1, 10, 39⟩
    |>.append ⟨2⟩ (.methodCall { name := "m" }) ⟨1, 1, 29, 32⟩

theorem lowerSource_switchCall (hash : String) :
    Java.lowerSource .empty "A.java" .source hash "class A { void m() { switch (m()) { } } }"
      Source.switchCallTree = switchCall hash :=
  Java.lowerSource_eq_of_runFor 12 (by cbv)

theorem ofSources_switchCall :
    ∃ hash, Program.ofSources [.switchCall] = .ok (switchCall hash) := by
  refine ⟨Sha256.ofText Source.switchCall.text, ?_⟩
  rw [← lowerSource_switchCall]
  exact Program.ofSourcesBy_of_parse (s := .switchCall) Source.read?_switchCall

end Program

namespace CallGraph

/-- The call in `switch (m()) { }` lies in the method, but in no statement, and has no point. -/
theorem switch_call_unanchored :
    ∃ p, Program.ofSources [.switchCall] = .ok p ∧ p.callKind? ⟨3⟩ = some .methodCall ∧
      p.owner? ⟨3⟩ = some ⟨2⟩ ∧ p.isCallable ⟨2⟩ ∧ (∀ x ∈ p.ancestors ⟨3⟩, ¬ p.isStatement x) ∧
        ∀ point, (PointIndex.build p).containing ⟨2⟩ ⟨3⟩ ≠ .ok point := by
  obtain ⟨hash, loaded⟩ := Program.ofSources_switchCall
  let p := Program.switchCall hash
  have isCall : p.callKind? ⟨3⟩ = some .methodCall := by cbv
  have owned : p.owner? ⟨3⟩ = some ⟨2⟩ := by cbv
  have callable : p.isCallable ⟨2⟩ := by cbv
  have noStatement : (p.lineage ⟨3⟩).all (!p.isStatement ·) := by cbv
  have noConstructor : (p.callable? ⟨2⟩).any (·.kind == .constructor) = false := by cbv
  simp only [List.all_eq_true, Bool.not_eq_true', Bool.eq_false_iff] at noStatement
  refine ⟨p, loaded, isCall, owned, callable, ?_, fun point located => ?_⟩
  · exact fun x above => noStatement x (List.mem_cons_of_mem _ above)
  · have forest : p.Forest := (Program.grown_ofSourcesBy loaded).forest
    obtain ⟨-, above, owns⟩ := PointIndex.containing_build forest located
    rcases owns with ⟨statement, -⟩ | initializes
    · exact noStatement _ above statement
    · rw [initializes.constructor] at noConstructor
      cases noConstructor

end CallGraph

end JavaCallGraph
