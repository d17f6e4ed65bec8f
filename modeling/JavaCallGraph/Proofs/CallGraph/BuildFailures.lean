import JavaCallGraph.Proofs.CallGraph.Attribution
import JavaCallGraph.Proofs.CallGraph.DispatchFailures
import JavaCallGraph.Proofs.CallGraph.Retrying

/-!
When a build fails.

Where operands are children, whatever keeps a call inside a declaration from being linked is
recoverable. A call outside of all declarations ends the build, and it is always visited: no field
above it belongs to a callable or a type, so no part of the walk above it is skipped or repeated.
-/

namespace JavaCallGraph.CallGraph

variable {s : Basis} {p : Program} {settings : Settings} {units : List NodeId} {n : NodeId}
  {scope inner : Walk.Scope}

/-! ### Visits outside of all declarations -/

theorem uncalled_of_opening
    (opened : inner ∈ scope.openings s.program n (linkRule s n scope))
    (uncalled : inner.currentCallable? = none) :
    ¬s.program.isCallable n ∧ scope.currentCallable? = none := by
  by_cases isField : s.program.isField n
  · obtain ⟨field, kind⟩ := Program.isField_iff.mp isField
    refine ⟨fun callable => ?_, ?_⟩
    · obtain ⟨d, kind'⟩ := Program.isCallable_iff.mp callable
      cases kind.symm.trans kind'
    · -- inside a callable nothing is opened below a field
      by_contra inside
      rw [openings_field_inside kind (Option.isSome_iff_ne_none.mpr inside)] at opened
      cases opened
  · rw [openings_other isField, List.mem_singleton] at opened
    rw [opened, currentCallable?_below] at uncalled
    split at uncalled
    · cases uncalled
    · next plain => exact ⟨plain, uncalled⟩

theorem untyped_of_opening
    (opened : inner ∈ scope.openings s.program n (linkRule s n scope))
    (untyped : inner.currentType? = none) :
    ¬s.program.isType n ∧ scope.currentType? = none := by
  have types := types_of_opening opened
  rw [Walk.Scope.currentType?, types] at untyped
  split at untyped
  · cases untyped
  · next plain => exact ⟨plain, untyped⟩

theorem plain_above_of_visited (forest : s.program.Forest) (roots : units ⊆ s.program.units)
    (visited : (n, scope) ∈ sites s units) (untyped : scope.currentType? = none)
    (uncalled : scope.currentCallable? = none) :
    ∀ a ∈ s.program.ancestors n, ¬s.program.isDeclaration a := by
  refine Walk.visits_forall
    (motive := fun n scope => scope.currentType? = none → scope.currentCallable? = none →
      ∀ a ∈ s.program.ancestors n, ¬s.program.isDeclaration a)
    ?_ ?_ (n, scope) visited untyped uncalled
  · intro q outer higher inner opened c child untyped uncalled
    obtain ⟨noType, untyped⟩ := untyped_of_opening opened untyped
    obtain ⟨noCallable, uncalled⟩ := uncalled_of_opening opened uncalled
    rw [forest.ancestors_child (forest.mem_children.mp child), List.forall_mem_cons,
      Program.isDeclaration_iff, not_or]
    exact ⟨⟨noType, noCallable⟩, higher untyped uncalled⟩
  · intro u unit _ _
    rw [Program.Forest.ancestors_root (forest.mem_units.mp (roots unit)).2]
    simp

theorem visited_plain (forest : s.program.Forest) (roots : units ⊆ s.program.units)
    (beneath : ∃ u ∈ units, n = u ∨ u ∈ s.program.ancestors n)
    (plain : ∀ a ∈ s.program.ancestors n, ¬s.program.isDeclaration a) :
    (n, {}) ∈ sites s units := by
  -- from the units down: the parent is visited in the empty scope and opens that scope again
  induction n using forest.climb with
  | step n ih =>
    have fresh : ({} : Walk.Scope).passesOver s.program n = false := passesOver_fresh rfl n
    cases above : s.program.parent? n with
    | none =>
      obtain ⟨u, unit, line⟩ := beneath
      rw [Program.Forest.ancestors_root above] at line
      cases line.resolve_right List.not_mem_nil
      refine List.mem_flatMap.mpr ⟨n, unit, ?_⟩
      rw [Walk.visitsBelow, fresh]
      exact List.mem_cons_self
    | some q =>
      have inner : n ∉ units := forest.not_mem_of_parent? roots above
      rw [forest.ancestors_child above, List.forall_mem_cons] at plain
      have parent : (q, {}) ∈ sites s units :=
        ih q above (forest.parent_beneath roots above beneath) plain.2
      rw [← Walk.mem_scopesAt, sites, Walk.scopesAt_child forest above inner, Walk.opened,
        List.mem_filter, List.mem_flatMap]
      refine ⟨⟨{}, Walk.mem_scopesAt.mpr parent, ?_⟩, by rw [fresh]; rfl⟩
      rw [openings_plain plain.1 rfl rfl]
      exact List.mem_singleton_self _

/-! ### Calls that end a build -/

/-- The failure at a call outside of all declarations. -/
def strayCall (p : Program) (call : NodeId) : Error :=
  .illegalState ("Call " ++ p.describe call ++ " is outside of any type or callable declaration")

theorem linkCall_outside {g : CallGraph} {call : NodeId} {kind : CallKind}
    (untyped : scope.currentType? = none) (uncalled : scope.currentCallable? = none) :
    linkCall s g call kind scope = (g, .error (strayCall s.program call)) := by
  unfold linkCall
  rw [untyped, uncalled]
  rfl

theorem targets_recoverable (forest : p.Forest)
    (operands : ∀ n c, p.Operand n c → c ∈ p.children n) {call : NodeId} {kind : CallKind}
    (visited : (call, scope) ∈ sites (.reference p settings) units)
    (isCall : p.callKind? call = some kind) :
    FailsOnlyBy Recoverable (targets (.reference p settings) call kind scope) := by
  have recoverable : ∀ e, Resolver.Unresolved e → Recoverable e := by
    rintro e ⟨reason⟩
    rfl
  have current : ∀ t, scope.currentType? = some t → p.isType t :=
    fun t => isType_of_currentType? (s := .reference p settings) forest visited
  have typing : ∀ c, p.Operand call c →
      FailsOnlyBy Recoverable (Resolver.staticType (Hierarchy.build p) c) :=
    fun c operand => (Resolver.staticType_unresolved forest operands operand).mono recoverable
  exact targets_fails (fun reason => recoverable _ (.intro reason)) current typing isCall

theorem scope_of_fatal (forest : p.Forest) (operands : ∀ n c, p.Operand n c → c ∈ p.children n)
    (discard : settings.zeroTargets = .discard) {g g' : CallGraph} {call : NodeId} {kind : CallKind}
    (visited : (call, scope) ∈ sites (.reference p settings) units)
    (isCall : p.callKind? call = some kind) {e : Error}
    (failed : linkCall (.reference p settings) g call kind scope = (g', .error e)) :
    scope.currentType? = none ∧ scope.currentCallable? = none := by
  obtain ⟨links, fails, -⟩ := linkCall_error failed
  cases fails with
  | unlinked _ _ unlinked final => exact absurd (linkOf_recoverable isCall g _ _ _ unlinked) final
  | noTargets _ _ strict => cases discard.symm.trans strict
  | unresolved _ unresolved final =>
    exact absurd (targets_recoverable forest operands visited isCall _ unresolved) final
  | outside uncalled untyped => exact ⟨untyped, uncalled⟩

/-- A call beneath some units that has no declaration above it. -/
structure Stray (p : Program) (units : List NodeId) (call : NodeId) : Prop where
  isCall : (p.callKind? call).isSome
  beneath : ∃ u ∈ units, call ∈ p.descendants u
  plain : ∀ a ∈ p.ancestors call, ¬p.isDeclaration a

theorem Stray.ends_build (forest : s.program.Forest) (roots : units ⊆ s.program.units)
    {call : NodeId} (stray : Stray s.program units call) (g : CallGraph) :
    ∃ place ∈ sites s units,
      (Walk.attend (linker s) place g).2 = .error (strayCall s.program call) := by
  obtain ⟨kind, isCall⟩ := Option.isSome_iff_exists.mp stray.isCall
  obtain ⟨u, unit, below⟩ := stray.beneath
  have line := forest.mem_descendants.mp below
  refine ⟨(call, {}), visited_plain forest roots ⟨u, unit, line⟩ stray.plain, ?_⟩
  rw [attend_linker_call isCall, linkCall_outside rfl rfl]

/-- Only stray calls end a build. -/
theorem stray_of_fatal (forest : p.Forest) (operands : ∀ n c, p.Operand n c → c ∈ p.children n)
    (discard : settings.zeroTargets = .discard) (roots : units ⊆ p.units) {g : CallGraph}
    {place : NodeId × Walk.Scope} (visited : place ∈ sites (.reference p settings) units)
    {e : Error} (failed : (Walk.attend (linker (.reference p settings)) place g).2 = .error e) :
    ∃ call, Stray p units call ∧ e = strayCall p call := by
  obtain ⟨call, scope⟩ := place
  obtain ⟨u, unit, below⟩ := List.mem_flatMap.mp visited
  have present : ∀ u ∈ units, p.has u := fun u unit => (forest.mem_units.mp (roots unit)).1
  cases isCall : p.callKind? call with
  | none =>
    have here : p.has call := Walk.has_of_visited forest present (call, scope) visited
    rw [attend_linker_other here isCall] at failed
    cases failed
  | some kind =>
    have linked : Walk.attend (linker (.reference p settings)) (call, scope) g =
        linkCall (.reference p settings) g call kind scope := attend_linker_call isCall
    rw [linked] at failed
    obtain ⟨untyped, uncalled⟩ :=
      scope_of_fatal forest operands discard visited isCall (Prod.ext rfl failed)
    rw [linkCall_outside untyped uncalled] at failed
    cases failed
    refine ⟨call, ⟨?_, ⟨u, unit, ?_⟩, ?_⟩, rfl⟩
    · rw [isCall]
      rfl
    · exact forest.mem_descendants.mpr (Walk.mem_descendants_of_visited forest below)
    · exact plain_above_of_visited forest roots visited untyped uncalled

/-- With zero targets discarded, a build for units of a program whose receivers and arguments are
children of their calls succeeds exactly if every call beneath the units has a type or a callable
above it. Any other build fails at a call that has none, with an illegal state that names it. -/
theorem build_fails_at_stray_calls (grown : p.Grown) (receivers : p.ReceiversBelow)
    (arguments : p.ArgumentsBelow) (discard : settings.zeroTargets = .discard)
    (roots : units ⊆ p.units) :
    ((∃ g, build (.reference p settings) empty units = (g, .ok ())) ↔
      ∀ u ∈ units, ∀ call ∈ p.descendants u, (p.callKind? call).isSome →
        ∃ a ∈ p.ancestors call, p.isType a ∨ p.isCallable a) ∧
    ∀ g e, build (.reference p settings) empty units = (g, .error e) →
      ∃ u ∈ units, ∃ call ∈ p.descendants u, (p.callKind? call).isSome ∧
        (∀ a ∈ p.ancestors call, ¬(p.isType a ∨ p.isCallable a)) ∧
          e = .illegalState
            ("Call " ++ p.describe call ++ " is outside of any type or callable declaration") := by
  have forest := grown.forest
  have operands : ∀ n c, p.Operand n c → c ∈ p.children n :=
    fun n c operand => Program.operand_mem_children arguments receivers operand
  have present : ∀ u ∈ units, p.has u := fun u unit => (forest.mem_units.mp (roots unit)).1
  have verdict := build_eq_ok (s := .reference p settings) (g := empty) forest rfl present empty
  simp only [← Program.isDeclaration_iff]
  refine ⟨⟨?_, ?_⟩, ?_⟩
  · rintro ⟨g, built⟩ u unit call below isCall
    rw [built] at verdict
    by_contra plain
    have stray : Stray p units call := by
      refine ⟨isCall, ⟨u, unit, below⟩, fun a above declares => ?_⟩
      exact plain ⟨a, above, declares⟩
    obtain ⟨place, visited, ends⟩ :=
      stray.ends_build (s := .reference p settings) forest roots empty
    rw [verdict.mp rfl place visited] at ends
    cases ends
  · intro declared
    refine ⟨_, Prod.ext rfl (verdict.mpr fun place visited => ?_)⟩
    cases ended : (Walk.attend (linker (.reference p settings)) place empty).2 with
    | ok _ => rfl
    | error e =>
      obtain ⟨call, ⟨isCall, ⟨u, unit, below⟩, plain⟩, -⟩ :=
        stray_of_fatal forest operands discard roots visited ended
      obtain ⟨a, above, declares⟩ := declared u unit call below isCall
      exact absurd declares (plain a above)
  · intro g e failed
    obtain ⟨place, visited, ended⟩ := site_of_build_error forest rfl present empty failed
    obtain ⟨call, ⟨isCall, ⟨u, unit, below⟩, plain⟩, rfl⟩ :=
      stray_of_fatal forest operands discard roots visited ended
    exact ⟨u, unit, call, below, isCall, plain, rfl⟩

/-- A method with a call on `this` and a call that names nothing, and a call outside of any type. -/
def stray : Program :=
  Program.empty
    |>.addUnit { path := "A.java" }
    |>.append ⟨0⟩ (.type { kind := .classType, name := "A" }) .unknown
    |>.append ⟨1⟩ (.callable (.method "m")) .unknown
    |>.append ⟨2⟩ (.statement (.other "expression_statement")) .unknown
    |>.append ⟨3⟩ (.methodCall { name := "m" }) .unknown
    |>.appendReceiver ⟨4⟩ (.expression .this) .unknown
    |>.append ⟨3⟩ (.methodCall { name := "gone" }) .unknown
    |>.appendArgument ⟨6⟩ (.expression (.name "x")) .unknown
    |>.addUnit { path := "B.java" }
    |>.append ⟨8⟩ (.methodCall { name := "m" }) .unknown

theorem stray_assembled : stray.Assembled := by
  unfold stray
  repeat' constructor

/-- The first unit can be built, and no list with the second unit in it. -/
theorem build_fails_at_stray_calls_stray :
    stray.Grown ∧ stray.ReceiversBelow ∧ stray.ArgumentsBelow ∧
      (∃ g, build (.reference stray {}) empty [⟨0⟩] = (g, .ok ())) ∧
      ¬∃ g, build (.reference stray {}) empty [⟨0⟩, ⟨8⟩, ⟨0⟩] = (g, .ok ()) := by
  have grown := stray_assembled.grown
  have receivers : stray.ReceiversBelow := by decide
  have arguments := stray_assembled.argumentsBelow
  have discard : ({} : Settings).zeroTargets = .discard := rfl
  have first : [(⟨0⟩ : NodeId)] ⊆ stray.units := by decide
  have both : [(⟨0⟩ : NodeId), ⟨8⟩, ⟨0⟩] ⊆ stray.units := by decide
  obtain ⟨succeeds, -⟩ := build_fails_at_stray_calls grown receivers arguments discard first
  obtain ⟨succeeds', -⟩ := build_fails_at_stray_calls grown receivers arguments discard both
  refine ⟨grown, receivers, arguments, succeeds.mpr (by decide), fun built => ?_⟩
  have declared := succeeds'.mp built ⟨8⟩ (by decide) ⟨9⟩ (by decide) (by decide)
  exact absurd declared (by decide)

/-! ### What the conditions are for -/

/-- A method `m` with one parameter, that returns an `A`. -/
def overload (parameter : String) : CallableDecl :=
  { kind := .method, name := "m", parameters := [{ typeName := parameter, name := "x" }],
    returnType := some "A" }

/-- Two overloads, and a call of one of them whose argument is a call that names the first call as
its own argument. -/
def endless : Program :=
  Program.empty
    |>.addUnit { path := "A.java" }
    |>.append ⟨0⟩ (.type { kind := .classType, name := "A" }) .unknown
    |>.append ⟨1⟩ (.callable (overload "A")) .unknown
    |>.append ⟨1⟩ (.callable (overload "B")) .unknown
    |>.append ⟨1⟩ (.callable (.method "n")) .unknown
    |>.append ⟨4⟩ (.statement (.other "expression_statement")) .unknown
    |>.append ⟨5⟩ (.methodCall { name := "m" }) .unknown
    |>.appendArgument ⟨6⟩ (.methodCall { name := "m", arguments := [⟨6⟩] }) .unknown

theorem endless_grown : endless.Grown := by
  unfold endless
  repeat' constructor

/-- The overload of each call depends on the type of the other. -/
theorem endless_typing {typeOf : NodeId → Except Error NodeId} {e : NodeId} :
    (typeOf ⟨7⟩ = .error (.endlessType e) →
      Resolver.staticTypeWith (Hierarchy.build endless) typeOf ⟨6⟩ = .error (.endlessType e)) ∧
    (typeOf ⟨6⟩ = .error (.endlessType e) →
      Resolver.staticTypeWith (Hierarchy.build endless) typeOf ⟨7⟩ = .error (.endlessType e)) := by
  constructor <;>
  · intro endless
    cbv
    rw [endless]
    rfl

theorem endless_types (depth : Nat) :
    (∃ e, Resolver.staticTypeWithin (Hierarchy.build endless) depth ⟨6⟩ = .error (.endlessType e)) ∧
      ∃ e, Resolver.staticTypeWithin (Hierarchy.build endless) depth ⟨7⟩ =
        .error (.endlessType e) := by
  induction depth with
  | zero => exact ⟨⟨_, rfl⟩, ⟨_, rfl⟩⟩
  | succ depth ih =>
    obtain ⟨⟨e, sixth⟩, ⟨e', seventh⟩⟩ := ih
    exact ⟨⟨e', endless_typing.1 seventh⟩, ⟨e, endless_typing.2 sixth⟩⟩

/-- A class with a unit inside of it, and a call in that unit. -/
def innerUnit : Program :=
  Program.empty
    |>.addUnit { path := "A.java" }
    |>.append ⟨0⟩ (.type { kind := .classType, name := "A" }) .unknown
    |>.append ⟨1⟩ (.callable (.method "m")) .unknown
    |>.append ⟨1⟩ (.unit { path := "B.java" }) .unknown
    |>.append ⟨3⟩ (.methodCall { name := "m" }) .unknown

theorem innerUnit_grown : innerUnit.Grown := by
  unfold innerUnit
  repeat' constructor

/-- Two builds that fail though every call has a type above it. Where an argument is not below its
call, typing need not come to an end, however deep it may go. A build that starts at a unit inside of
a type does not see that type. -/
theorem build_fails_without_stray_calls :
    (endless.Grown ∧ endless.ReceiversBelow ∧ [⟨0⟩] ⊆ endless.units ∧
      (∀ call ∈ endless.descendants ⟨0⟩, (endless.callKind? call).isSome →
        ∃ a ∈ endless.ancestors call, endless.isType a ∨ endless.isCallable a) ∧
      (∀ depth, ∃ e, Resolver.staticTypeWithin (Hierarchy.build endless) depth ⟨6⟩ =
        .error (.endlessType e)) ∧
      (build (.reference endless {}) empty [⟨0⟩]).2 = .error (.endlessType ⟨6⟩)) ∧
    (innerUnit.Grown ∧ innerUnit.ReceiversBelow ∧ innerUnit.isUnit ⟨3⟩ ∧
      (∀ call ∈ innerUnit.descendants ⟨3⟩, (innerUnit.callKind? call).isSome →
        ∃ a ∈ innerUnit.ancestors call, innerUnit.isType a ∨ innerUnit.isCallable a) ∧
      (build (.reference innerUnit {}) empty [⟨3⟩]).2 =
        .error (.illegalState "Call m(..)@0 is outside of any type or callable declaration")) := by
  refine ⟨⟨endless_grown, by decide, by decide, by decide, fun depth => (endless_types depth).1, ?_⟩,
    innerUnit_grown, by decide, by decide, by decide, ?_⟩
  · rw [build_eq endless_grown.forest rfl (by decide)]
    cbv
  · rw [build_eq innerUnit_grown.forest rfl (by decide)]
    cbv

end JavaCallGraph.CallGraph
