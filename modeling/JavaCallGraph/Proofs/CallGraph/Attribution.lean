import JavaCallGraph.Proofs.CallGraph.Builds
import JavaCallGraph.Proofs.CallGraph.Scopes
import Mathlib

/-!
Who a call belongs to.

A build over some units visits every node beneath them, with one exception: below a field that is
itself inside a callable nothing is visited. A node may be visited several times only where the
initializer of a field is run by several constructors, and there only up to the next declaration. So
a call inside a callable is reported once, by the innermost callable around it, unless such a field
lies above it.
-/

namespace JavaCallGraph.CallGraph

variable {s : Basis}

/-- Whether calls below a node belong to a callable on its account: it is one, or it is a field
whose initializer constructors run. -/
def opensCallable (s : Basis) (n : NodeId) : Bool :=
  s.program.isCallable n ||
    (s.program.fieldDecl? n).any fun field =>
      !(runners s field (s.program.enclosingType? n)).isEmpty

/-- Whether a node is visited inside a callable. -/
def insideCallable (s : Basis) (n : NodeId) : Bool :=
  (s.program.ancestors n).any (opensCallable s)

/-- Whether a node lies below a field that is visited inside a callable. -/
def passedBy (s : Basis) (n : NodeId) : Bool :=
  (s.program.ancestors n).any fun f => s.program.isField f && insideCallable s f

theorem insideCallable_child (forest : s.program.Forest) {c q : NodeId}
    (above : s.program.parent? c = some q) :
    insideCallable s c = (opensCallable s q || insideCallable s q) := by
  rw [insideCallable, forest.ancestors_child above, List.any_cons]
  rfl

theorem passedBy_child (forest : s.program.Forest) {c q : NodeId}
    (above : s.program.parent? c = some q) :
    passedBy s c = (s.program.isField q && insideCallable s q || passedBy s q) := by
  rw [passedBy, forest.ancestors_child above, List.any_cons]
  rfl

theorem opensCallable_of_field {f : NodeId} {field : FieldDecl}
    (kind : s.program.kind? f = some (.field field)) :
    opensCallable s f = !(runners s field (s.program.enclosingType? f)).isEmpty := by
  simp [opensCallable, Program.isCallable, Program.callable?, Program.fieldDecl?, kind,
    NodeKind.callable?, NodeKind.field?]

theorem opensCallable_of_other {n : NodeId} (noField : ¬s.program.isField n) :
    opensCallable s n = s.program.isCallable n := by
  have none : s.program.fieldDecl? n = none := by
    simpa [Program.isField] using noField
  simp [opensCallable, none]

/-! ### Scopes below a node -/

theorem replays_below (p : Program) (scope : Walk.Scope) (n : NodeId) :
    (scope.below p n).replays = scope.replays := by
  unfold Walk.Scope.below
  split <;> rfl

theorem currentCallable?_below (p : Program) (scope : Walk.Scope) (n : NodeId) :
    (scope.below p n).currentCallable? =
      if p.isCallable n then some n else scope.currentCallable? := by
  unfold Walk.Scope.below
  split
  · next kind =>
    rw [if_neg]
    · rfl
    · intro callable
      obtain ⟨d, kind'⟩ := Program.isCallable_iff.mp callable
      cases kind.symm.trans kind'
  · next d kind =>
    rw [if_pos (Program.isCallable_iff.mpr ⟨d, kind⟩)]
    rfl
  · next noCallable =>
    rw [if_neg]
    intro callable
    obtain ⟨d, kind⟩ := Program.isCallable_iff.mp callable
    exact noCallable d kind

theorem passesOver_fresh {p : Program} {scope : Walk.Scope} (fresh : scope.replays = 0)
    (n : NodeId) : scope.passesOver p n = false := by
  simp [Walk.Scope.passesOver, fresh]

theorem filter_repeats {p : Program} {repeats : List Walk.Scope} {n : NodeId}
    (repeated : ∀ scope ∈ repeats, 0 < scope.replays) (declares : p.isDeclaration n) :
    repeats.filter (!·.passesOver p n) = [] := by
  rw [List.filter_eq_nil_iff]
  intro scope member
  simp [Walk.Scope.passesOver, repeated scope member, declares]

/-- In a walk over units the innermost type of a scope is that around the node. -/
theorem currentType?_of_visited (forest : s.program.Forest) {units : List NodeId}
    (roots : units ⊆ s.program.units) {n : NodeId} {scope : Walk.Scope}
    (visited : (n, scope) ∈ sites s units) : scope.currentType? = s.program.enclosingType? n := by
  obtain ⟨root, unit, below⟩ := List.mem_flatMap.mp visited
  have noTypes : s.program.enclosingTypes root = [] := by
    have top := (forest.mem_units.mp (roots unit)).2
    rw [Program.enclosingTypes, Program.Forest.ancestors_root top]
    rfl
  have types : s.program.enclosingTypes n = scope.types ++ s.program.enclosingTypes root :=
    enclosingTypes_of_visited forest below
  rw [noTypes, List.append_nil] at types
  rw [Program.enclosingType?, ← List.head?_filter, ← Program.enclosingTypes, types]
  rfl

/-! ### How a node is met -/

/-- The scopes in which a node is visited, the first of them apart from the repeated passes. -/
structure Met (s : Basis) (n : NodeId) (first : Walk.Scope) (repeats : List Walk.Scope) : Prop where
  fresh : first.replays = 0
  repeated : ∀ scope ∈ repeats, 0 < scope.replays
  inside : ∀ scope ∈ first :: repeats, scope.currentCallable?.isSome = insideCallable s n
  caller : ∀ d, s.program.enclosingCallable? n = some d →
    first.currentCallable? = some d ∧ repeats = []
  once : s.program.isDeclaration n ∨ insideCallable s n = false → repeats = []

namespace Met

variable {n q : NodeId} {first : Walk.Scope} {repeats : List Walk.Scope}

theorem root (top : s.program.parent? n = none) : Met s n {} [] := by
  have noAncestors := Program.Forest.ancestors_root top
  refine ⟨rfl, by simp, ?_, ?_, fun _ => rfl⟩
  · intro scope member
    rw [List.mem_singleton.mp member, insideCallable, noAncestors]
    rfl
  · intro d enclosing
    rw [Program.enclosingCallable?, noAncestors] at enclosing
    cases enclosing

/-- Below a node that is no field. -/
theorem other (met : Met s q first repeats) (forest : s.program.Forest)
    (above : s.program.parent? n = some q) (noField : ¬s.program.isField q) :
    Met s n (first.below s.program q)
      ((repeats.map (·.below s.program q)).filter (!·.passesOver s.program n)) := by
  have repeated : ∀ scope ∈ repeats.map (·.below s.program q), 0 < scope.replays := by
    intro scope member
    obtain ⟨outer, listed, rfl⟩ := List.mem_map.mp member
    rw [replays_below]
    exact met.repeated outer listed
  have inside : ∀ scope ∈ first :: repeats,
      (scope.below s.program q).currentCallable?.isSome = insideCallable s n := by
    intro scope member
    rw [currentCallable?_below, insideCallable_child forest above, opensCallable_of_other noField,
      ← met.inside scope member]
    cases s.program.isCallable q <;> rfl
  refine ⟨?_, ?_, ?_, ?_, ?_⟩
  · rw [replays_below]
    exact met.fresh
  · intro scope member
    exact repeated scope (List.mem_filter.mp member).1
  · intro scope member
    rcases List.mem_cons.mp member with rfl | later
    · exact inside first List.mem_cons_self
    · obtain ⟨outer, listed, rfl⟩ := List.mem_map.mp (List.mem_filter.mp later).1
      exact inside outer (List.mem_cons_of_mem _ listed)
  · intro d enclosing
    rw [forest.enclosingCallable?_child above] at enclosing
    rw [currentCallable?_below]
    split at enclosing
    · next callable =>
      -- a declaration is never met in a repeated pass, so neither is what lies below it
      rw [met.once (.inl (Program.isDeclaration_of_isCallable callable))]
      exact ⟨by rw [if_pos callable, enclosing], rfl⟩
    · next plain =>
      obtain ⟨current, alone⟩ := met.caller d enclosing
      rw [alone]
      exact ⟨by rw [if_neg plain, current], rfl⟩
  · rintro (declares | outside)
    · exact filter_repeats repeated declares
    · rw [insideCallable_child forest above, Bool.or_eq_false_iff] at outside
      rw [met.once (.inr outside.2)]
      rfl

/-- A callable around a child of a field is around the field. -/
theorem caller_of_field (met : Met s q first repeats) (forest : s.program.Forest)
    (above : s.program.parent? n = some q) {field : FieldDecl}
    (kind : s.program.kind? q = some (.field field)) {d : NodeId}
    (enclosing : s.program.enclosingCallable? n = some d) : first.currentCallable? = some d := by
  have noCallable : ¬s.program.isCallable q := by
    intro callable
    obtain ⟨decl, kind'⟩ := Program.isCallable_iff.mp callable
    cases kind.symm.trans kind'
  rw [forest.enclosingCallable?_child above, if_neg noCallable] at enclosing
  exact (met.caller d enclosing).1

/-- Below a field whose initializer no constructor runs. -/
theorem field (met : Met s q first repeats) (forest : s.program.Forest)
    (above : s.program.parent? n = some q) {field : FieldDecl}
    (kind : s.program.kind? q = some (.field field))
    (alone : runners s field (s.program.enclosingType? q) = []) : Met s n first [] := by
  refine ⟨met.fresh, by simp, ?_, ?_, fun _ => rfl⟩
  · intro scope member
    rw [List.mem_singleton.mp member, met.inside first List.mem_cons_self,
      insideCallable_child forest above, opensCallable_of_field kind, alone]
    rfl
  · intro d enclosing
    exact ⟨met.caller_of_field forest above kind enclosing, rfl⟩

/-- Below a field whose initializer some constructors run. -/
theorem initializer (met : Met s q first repeats) (forest : s.program.Forest)
    (above : s.program.parent? n = some q) {field : FieldDecl}
    (kind : s.program.kind? q = some (.field field)) {constructor : NodeId} {others : List NodeId}
    (run : runners s field (s.program.enclosingType? q) = constructor :: others)
    (outside : first.currentCallable? = none) :
    Met s n (first.inside constructor false)
      ((others.map (first.inside · true)).filter (!·.passesOver s.program n)) := by
  have repeated : ∀ scope ∈ others.map (first.inside · true), 0 < scope.replays := by
    intro scope member
    obtain ⟨other, -, rfl⟩ := List.mem_map.mp member
    simp [Walk.Scope.inside]
  have insideBelow : insideCallable s n = true := by
    rw [insideCallable_child forest above, opensCallable_of_field kind, run]
    rfl
  refine ⟨?_, ?_, ?_, ?_, ?_⟩
  · simp [Walk.Scope.inside, met.fresh]
  · intro scope member
    exact repeated scope (List.mem_filter.mp member).1
  · intro scope member
    rw [insideBelow]
    rcases List.mem_cons.mp member with rfl | later
    · rfl
    · obtain ⟨other, -, rfl⟩ := List.mem_map.mp (List.mem_filter.mp later).1
      rfl
  · intro d enclosing
    rw [met.caller_of_field forest above kind enclosing] at outside
    cases outside
  · rintro (declares | outside)
    · exact filter_repeats repeated declares
    · rw [insideBelow] at outside
      cases outside

/-- Below a field inside a callable nothing is met. -/
theorem closed (met : Met s q first repeats) {field : FieldDecl}
    (kind : s.program.kind? q = some (.field field)) (inside : insideCallable s q = true) :
    ((first :: repeats).flatMap fun scope =>
      scope.openings s.program q (linkRule s q scope)) = [] := by
  apply List.flatMap_eq_nil_iff.mpr
  intro scope member
  apply openings_field_inside kind
  rw [met.inside scope member, inside]

/-- From a node that is met to its children, unless it is a field inside a callable. -/
theorem child (met : Met s q first repeats) (forest : s.program.Forest)
    (above : s.program.parent? n = some q)
    (typed : first.currentType? = s.program.enclosingType? q)
    (entered : s.program.isField q → insideCallable s q = false) :
    ∃ first' repeats',
      ((first :: repeats).flatMap fun scope =>
        scope.openings s.program q (linkRule s q scope)).filter (!·.passesOver s.program n) =
          first' :: repeats' ∧ Met s n first' repeats' := by
  by_cases isField : s.program.isField q
  · obtain ⟨field, kind⟩ := Program.isField_iff.mp isField
    have outside : first.currentCallable? = none := by
      have := met.inside first List.mem_cons_self
      rw [entered isField] at this
      simpa using this
    rw [met.once (.inr (entered isField)), List.flatMap_singleton,
      openings_field_outside kind outside, typed]
    cases run : runners s field (s.program.enclosingType? q) with
    | nil =>
      refine ⟨first, [], ?_, met.field forest above kind run⟩
      simp [passesOver_fresh met.fresh]
    | cons constructor others =>
      have below := met.initializer forest above kind run outside
      refine ⟨_, _, ?_, below⟩
      simp [passesOver_fresh below.fresh]
  · have below := met.other forest above isField
    refine ⟨_, _, ?_, below⟩
    simp only [openings_other isField, ← List.map_eq_flatMap]
    simp [passesOver_fresh below.fresh]

end Met

/-! ### Every node beneath a unit -/

/-- The visits of a node beneath a walked unit: none if it is passed by, else one and the repeated
passes. -/
theorem visited_beneath_unit (forest : s.program.Forest) {units : List NodeId}
    (roots : units ⊆ s.program.units) (distinct : units.Nodup) {n : NodeId}
    (beneath : ∃ u ∈ units, n = u ∨ u ∈ s.program.ancestors n) :
    if passedBy s n then Walk.scopesAt (sites s units) n = []
    else ∃ first repeats, Walk.scopesAt (sites s units) n = first :: repeats ∧
      Met s n first repeats := by
  -- from the units down; what is known of a parent's visits decides those of its children
  induction n using forest.climb with
  | step n ih =>
    cases above : s.program.parent? n with
    | none =>
      have noAncestors := Program.Forest.ancestors_root above
      obtain ⟨u, unit, line⟩ := beneath
      rw [noAncestors] at line
      cases line.resolve_right List.not_mem_nil
      rw [if_neg (by simp [passedBy, noAncestors])]
      exact ⟨{}, [], Walk.scopesAt_walkRoot forest distinct unit above, .root above⟩
    | some q =>
      have inner : n ∉ units := forest.not_mem_of_parent? roots above
      have parent := ih q above (forest.parent_beneath roots above beneath)
      rw [sites, Walk.scopesAt_child forest above inner, Walk.opened, ← sites,
        passedBy_child forest above]
      split at parent
      · next passed =>
        rw [if_pos (by simp [passed]), parent]
        rfl
      · next notPassed =>
        obtain ⟨first, repeats, scopes, met⟩ := parent
        rw [scopes]
        by_cases skipped : s.program.isField q && insideCallable s q
        · rw [if_pos (by simp [skipped])]
          obtain ⟨isField, inside⟩ := (Bool.and_eq_true _ _).mp skipped
          obtain ⟨field, kind⟩ := Program.isField_iff.mp isField
          rw [met.closed kind inside]
          rfl
        · rw [if_neg (by simp [skipped, notPassed])]
          have visited : (q, first) ∈ sites s units := by
            rw [← Walk.mem_scopesAt, scopes]
            exact List.mem_cons_self
          have entered : s.program.isField q → insideCallable s q = false := by
            intro isField
            simpa [isField] using skipped
          exact met.child forest above (currentType?_of_visited forest roots visited) entered

/-- A call inside a callable is reported once, by the innermost callable around it. Only a call
below a field that is itself inside a callable is not reported at all. -/
theorem call_reported_by_enclosing (grown : s.program.Grown) {units : List NodeId}
    (roots : units ⊆ s.program.units) (distinct : units.Nodup) {g : CallGraph}
    (built : build s empty units = (g, .ok ())) {u call d : NodeId} {kind : CallKind}
    (isCall : s.program.callKind? call = some kind) (unit : u ∈ units)
    (beneath : call ∈ s.program.descendants u)
    (enclosing : s.program.enclosingCallable? call = some d) :
    if passedBy s call then ∀ r ∈ g.reports, r.call ≠ call
    else ∃ r, g.reports.filter (·.call = call) = [r] ∧ r.caller = some d := by
  have forest := grown.forest
  have callers := reports_build_empty forest built isCall
  have visits := visited_beneath_unit forest roots distinct
    ⟨u, unit, forest.mem_descendants.mp beneath⟩
  split at visits
  · next passed =>
    rw [if_pos passed]
    rw [visits, List.map_nil, List.map_eq_nil_iff, List.filter_eq_nil_iff] at callers
    simpa using callers
  · next notPassed =>
    rw [if_neg notPassed]
    obtain ⟨first, repeats, scopes, met⟩ := visits
    obtain ⟨current, alone⟩ := met.caller d enclosing
    rw [scopes, alone, List.map_singleton, List.map_eq_singleton_iff, current] at callers
    exact callers

/-- A method with a local class, in which a field and a method hold a call each. -/
def localClass : Program :=
  Program.empty
    |>.addUnit { path := "A.java" }
    |>.append ⟨0⟩ (.type { kind := .classType, name := "A" }) .unknown
    |>.append ⟨1⟩ (.callable (.method "m")) .unknown
    |>.append ⟨2⟩ (.type { kind := .classType, name := "L" }) .unknown
    |>.append ⟨3⟩ (.field { typeName := "int", names := ["x"] }) .unknown
    |>.append ⟨4⟩ (.methodCall { name := "foo" }) .unknown
    |>.append ⟨3⟩ (.callable (.method "n")) .unknown
    |>.append ⟨6⟩ (.statement (.other "expression_statement")) .unknown
    |>.append ⟨7⟩ (.methodCall { name := "n" }) .unknown

theorem localClass_grown : localClass.Grown := by
  unfold localClass
  repeat' constructor

def localClassGraph : CallGraph where
  vertices := [⟨⟨2⟩, .method, "m()", some "A"⟩, ⟨⟨6⟩, .method, "n()", some "L"⟩]
  bySignature :=
    ⟨[("m()", [⟨⟨2⟩, .method, "m()", some "A"⟩]), ("n()", [⟨⟨6⟩, .method, "n()", some "L"⟩])]⟩
  links := [⟨⟨6⟩, ⟨6⟩, { kind := .methodCall, call := ⟨8⟩, point := ⟨0, ⟨6⟩, ⟨7⟩⟩ }⟩]
  reports := [⟨⟨8⟩, .methodCall, some ⟨6⟩, .linked 1⟩]
  built := true

theorem localClass_built :
    build (.reference localClass {}) empty localClass.units = (localClassGraph, .ok ()) := by
  rw [build_eq localClass_grown.forest rfl (by decide)]
  cbv

/-- The call in the method of the local class is reported by that method. -/
theorem call_reported_by_enclosing_local :
    passedBy (.reference localClass {}) ⟨8⟩ = false ∧
      localClass.enclosingCallable? ⟨8⟩ = some ⟨6⟩ ∧
      ∃ r, localClassGraph.reports.filter (·.call = ⟨8⟩) = [r] ∧ r.caller = some ⟨6⟩ := by
  have entered : passedBy (.reference localClass {}) ⟨8⟩ = false := by cbv
  have enclosing : localClass.enclosingCallable? ⟨8⟩ = some ⟨6⟩ := by decide
  have isCall : localClass.callKind? ⟨8⟩ = some .methodCall := by decide
  have beneath : ⟨8⟩ ∈ localClass.descendants ⟨0⟩ := by decide
  have unit : ⟨0⟩ ∈ localClass.units := by decide
  have reported := call_reported_by_enclosing (s := .reference localClass {}) localClass_grown
    (List.Subset.refl _) (by decide) localClass_built isCall unit beneath enclosing
  rw [if_neg (by simp [entered])] at reported
  exact ⟨entered, enclosing, reported⟩

/-- The call in the field of the local class has a callable around it as well, but no report. -/
theorem call_in_local_field_unreported :
    build (.reference localClass {}) empty localClass.units = (localClassGraph, .ok ()) ∧
      localClass.units.Nodup ∧ localClass.callKind? ⟨5⟩ = some .methodCall ∧
      ⟨0⟩ ∈ localClass.units ∧ ⟨5⟩ ∈ localClass.descendants ⟨0⟩ ∧
      localClass.enclosingCallable? ⟨5⟩ = some ⟨2⟩ ∧
      ∀ r ∈ localClassGraph.reports, r.call ≠ ⟨5⟩ :=
  ⟨localClass_built, by decide, by decide, by decide, by decide, by decide, by decide⟩

end JavaCallGraph.CallGraph
