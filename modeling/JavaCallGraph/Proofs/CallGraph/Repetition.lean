import JavaCallGraph.Proofs.CallGraph.Attribution

/-!
Calls that are reported more than once.

A field that constructors run is walked once for each of them. Below it the walk comes to every node
up to the next declaration in each pass, and to that declaration and all inside it in the first pass
only. A further field on the way is met inside a constructor and not entered. So the passes never
multiply: a call with several reports has one field to thank for them, and the constructors of the
field's type report it in order, each once.
-/

namespace JavaCallGraph.CallGraph

/-- A non-static field outside all callables, with a node in its initializer that no declaration
separates from it. -/
structure Initializes (p : Program) (f type n : NodeId) : Prop where
  field : ∃ decl, p.kind? f = some (.field decl) ∧ decl.isStatic = false
  outside : ∀ a ∈ p.ancestors f, ¬p.isCallable a
  owner : p.enclosingType? f = some type
  above : f ∈ p.ancestors n
  direct : ∀ x ∈ p.ancestors n, f ∈ p.ancestors x → ¬p.isDeclaration x

namespace Initializes

variable {p : Program} {f type n q : NodeId}

theorem of_parent (forest : p.Forest) (above : p.parent? n = some f)
    (field : ∃ decl, p.kind? f = some (.field decl) ∧ decl.isStatic = false)
    (outside : ∀ a ∈ p.ancestors f, ¬p.isCallable a) (owner : p.enclosingType? f = some type) :
    Initializes p f type n := by
  have ancestors := forest.ancestors_child above
  refine ⟨field, outside, owner, by simp [ancestors], fun x between below => ?_⟩
  -- nothing lies between a node and its parent
  have older := forest.lt_of_mem_ancestors below
  rw [ancestors, List.mem_cons] at between
  rcases between with rfl | higher
  · omega
  · have := forest.lt_of_mem_ancestors higher
    omega

theorem child (initializes : Initializes p f type q) (forest : p.Forest)
    (above : p.parent? n = some q) (plain : ¬p.isDeclaration q) : Initializes p f type n := by
  have ancestors := forest.ancestors_child above
  refine ⟨initializes.field, initializes.outside, initializes.owner, ?_, fun x between below => ?_⟩
  · rw [ancestors]
    exact List.mem_cons_of_mem _ initializes.above
  · rw [ancestors, List.mem_cons] at between
    rcases between with rfl | higher
    · exact plain
    · exact initializes.direct x higher below

end Initializes

variable {s : Basis} {units : List NodeId} {n : NodeId}

theorem runners_eq_cons {field : FieldDecl} {type? : Option NodeId} {constructor : NodeId}
    {others : List NodeId} (run : runners s field type? = constructor :: others) :
    field.isStatic = false ∧
      ∃ type, type? = some type ∧ s.program.constructorsOf type = constructor :: others := by
  unfold runners at run
  split at run
  · cases run
  · next applies =>
    cases type? with
    | none => cases run
    | some type =>
      rw [Bool.or_eq_true, not_or] at applies
      exact ⟨by simpa using applies.1, type, rfl, run⟩

/-! ### Several visits -/

theorem beneath_of_visited (forest : s.program.Forest)
    (visited : Walk.scopesAt (sites s units) n ≠ []) :
    ∃ u ∈ units, n = u ∨ u ∈ s.program.ancestors n := by
  obtain ⟨scope, member⟩ := List.exists_mem_of_ne_nil _ visited
  obtain ⟨u, unit, below⟩ := List.mem_flatMap.mp (Walk.mem_scopesAt.mp member)
  exact ⟨u, unit, Walk.mem_descendants_of_visited forest below⟩

theorem met_of_visited (forest : s.program.Forest) (roots : units ⊆ s.program.units)
    (distinct : units.Nodup) (visited : Walk.scopesAt (sites s units) n ≠ []) :
    ∃ first repeats, Walk.scopesAt (sites s units) n = first :: repeats ∧
      Met s n first repeats := by
  have visits := visited_beneath_unit forest roots distinct (beneath_of_visited forest visited)
  split at visits
  · exact absurd visits visited
  · exact visits

/-- A node that is no declaration is visited in all the scopes that its parent opens. -/
theorem scopesAt_plain_child (forest : s.program.Forest) (roots : units ⊆ s.program.units)
    {q : NodeId} (above : s.program.parent? n = some q) (plain : ¬s.program.isDeclaration n) :
    Walk.scopesAt (sites s units) n =
      (Walk.scopesAt (sites s units) q).flatMap fun scope =>
        scope.openings s.program q (linkRule s q scope) := by
  have inner : n ∉ units := forest.not_mem_of_parent? roots above
  rw [sites, Walk.scopesAt_child forest above inner, Walk.opened]
  apply List.filter_eq_self.mpr
  intro scope _
  rw [passesOver_plain plain]
  rfl

theorem plain_of_several (forest : s.program.Forest) (roots : units ⊆ s.program.units)
    (distinct : units.Nodup) (several : 1 < (Walk.scopesAt (sites s units) n).length) :
    ¬s.program.isDeclaration n := by
  intro declares
  have visited : Walk.scopesAt (sites s units) n ≠ [] := by
    apply List.ne_nil_of_length_pos
    omega
  obtain ⟨first, repeats, scopes, met⟩ := met_of_visited forest roots distinct visited
  rw [scopes, met.once (.inl declares)] at several
  exact Nat.lt_irrefl 1 several

theorem not_callable_above (outside : insideCallable s n = false) :
    ∀ a ∈ s.program.ancestors n, ¬s.program.isCallable a := by
  intro a above callable
  have opens : opensCallable s a := by simp [opensCallable, callable]
  rw [insideCallable, List.any_eq_false] at outside
  exact outside a above opens

/-- The passes over the initializer of a field. -/
theorem openings_field_several (forest : s.program.Forest) {q : NodeId} {first : Walk.Scope}
    {repeats : List Walk.Scope} (met : Met s q first repeats)
    (typed : first.currentType? = s.program.enclosingType? q)
    (above : s.program.parent? n = some q) {field : FieldDecl}
    (kind : s.program.kind? q = some (.field field)) {inner : List Walk.Scope}
    (opened : inner = (first :: repeats).flatMap fun scope =>
      scope.openings s.program q (linkRule s q scope))
    (several : 1 < inner.length) :
    ∃ type, Initializes s.program q type n ∧
      inner.map (·.currentCallable?) = (s.program.constructorsOf type).map some := by
  cases inside : insideCallable s q with
  | true =>
    rw [opened, met.closed kind inside] at several
    cases several
  | false =>
    have outside : first.currentCallable? = none := by
      have isNone := met.inside first List.mem_cons_self
      rw [inside] at isNone
      simpa using isNone
    rw [met.once (.inr inside), List.flatMap_singleton, openings_field_outside kind outside,
      typed] at opened
    cases run : runners s field (s.program.enclosingType? q) with
    | nil =>
      rw [opened, run] at several
      exact absurd several (Nat.lt_irrefl 1)
    | cons constructor others =>
      obtain ⟨dynamic, type, owner, constructors⟩ := runners_eq_cons run
      refine ⟨type, ?_, ?_⟩
      · exact .of_parent forest above ⟨field, kind, dynamic⟩ (not_callable_above inside) owner
      · rw [opened, run, constructors, List.map_cons, List.map_cons, List.map_map]
        rfl

/-- A node is visited several times only in the initializer of a field, once for each constructor
that runs it. -/
theorem visited_per_constructor (forest : s.program.Forest) (roots : units ⊆ s.program.units)
    (distinct : units.Nodup) (several : 1 < (Walk.scopesAt (sites s units) n).length) :
    ∃ f type, Initializes s.program f type n ∧
      (Walk.scopesAt (sites s units) n).map (·.currentCallable?) =
        (s.program.constructorsOf type).map some := by
  induction n using forest.climb with
  | step n ih =>
    have visited : Walk.scopesAt (sites s units) n ≠ [] := by
      apply List.ne_nil_of_length_pos
      omega
    obtain ⟨u, unit, line⟩ := beneath_of_visited forest visited
    cases above : s.program.parent? n with
    | none =>
      rw [Program.Forest.ancestors_root above] at line
      cases line.resolve_right List.not_mem_nil
      rw [sites, Walk.scopesAt_walkRoot forest distinct unit above] at several
      exact absurd several (Nat.lt_irrefl 1)
    | some q =>
      have opened := scopesAt_plain_child forest roots above
        (plain_of_several forest roots distinct several)
      have parentVisited : Walk.scopesAt (sites s units) q ≠ [] := by
        intro nowhere
        rw [opened, nowhere] at visited
        exact visited rfl
      obtain ⟨first, repeats, scopes, met⟩ := met_of_visited forest roots distinct parentVisited
      by_cases isField : s.program.isField q
      · obtain ⟨field, kind⟩ := Program.isField_iff.mp isField
        have here : (q, first) ∈ sites s units := by
          rw [← Walk.mem_scopesAt, scopes]
          exact List.mem_cons_self
        rw [scopes] at opened
        obtain ⟨type, initializes, callers⟩ := openings_field_several forest met
          (currentType?_of_visited forest roots here) above kind opened several
        exact ⟨q, type, initializes, callers⟩
      · -- below any other node the visits are those of the node itself
        simp only [openings_other isField, ← List.map_eq_flatMap] at opened
        have severalAbove : 1 < (Walk.scopesAt (sites s units) q).length := by
          rwa [opened, List.length_map] at several
        have plain := plain_of_several forest roots distinct severalAbove
        simp only [below_plain plain, List.map_id'] at opened
        obtain ⟨f, type, initializes, callers⟩ := ih q above severalAbove
        rw [opened]
        exact ⟨f, type, initializes.child forest above plain, callers⟩

/-! ### Reports -/

theorem nodup_call_caller {reports : List Report}
    (each : ∀ call, ((reports.filter (·.call = call)).map (·.caller)).Nodup) :
    (reports.map fun r => (r.call, r.caller)).Nodup := by
  induction reports with
  | nil => exact List.nodup_nil
  | cons r rest ih =>
    rw [List.map_cons, List.nodup_cons]
    constructor
    · intro again
      obtain ⟨other, later, same⟩ := List.mem_map.mp again
      obtain ⟨sameCall, sameCaller⟩ := Prod.mk.inj same
      have alone := each r.call
      rw [List.filter_cons_of_pos (by simp), List.map_cons, List.nodup_cons] at alone
      apply alone.1
      rw [← sameCaller]
      exact List.mem_map_of_mem (List.mem_filter.mpr ⟨later, by simp [sameCall]⟩)
    · apply ih
      intro call
      have fewer := ((List.sublist_cons_self r rest).filter (·.call = call)).map (·.caller)
      exact fewer.nodup (each call)

theorem callKind?_of_report (forest : s.program.Forest) {g : CallGraph}
    (built : build s empty units = (g, .ok ())) {r : Report} (member : r ∈ g.reports) :
    s.program.callKind? r.call = some r.kind := by
  obtain ⟨entries, journal, reports, -⟩ := build_empty forest built
  rw [reports] at member
  obtain ⟨e, listed, rfl⟩ := List.mem_map.mp member
  obtain ⟨node, kind, scope, -, isCall, records⟩ := journal.exists_site listed
  rw [records.call_eq, records.kind_eq]
  exact isCall

theorem constructorsOf_nodup {p : Program} (forest : p.Forest) (type : NodeId) :
    (p.constructorsOf type).Nodup :=
  (forest.children_nodup type).filter _

/-- In a build of different units every call is reported at most once by each caller. A call that is
reported several times stands in the initializer of a field, with no declaration between the two, and
the constructors of the field's type report it in the order of their declaration. -/
theorem call_reported_once_per_caller (grown : s.program.Grown) (roots : units ⊆ s.program.units)
    (distinct : units.Nodup) {g : CallGraph} (built : build s empty units = (g, .ok ())) :
    (g.reports.map fun r => (r.call, r.caller)).Nodup ∧
      ∀ call, 1 < (g.reports.filter (·.call = call)).length →
        ∃ f type, Initializes s.program f type call ∧
          (g.reports.filter (·.call = call)).map (·.caller) =
            (s.program.constructorsOf type).map some := by
  have forest := grown.forest
  have several : ∀ call, 1 < (g.reports.filter (·.call = call)).length →
      ∃ f type, Initializes s.program f type call ∧
        (g.reports.filter (·.call = call)).map (·.caller) =
          (s.program.constructorsOf type).map some := by
    intro call several
    obtain ⟨r, member⟩ := List.exists_mem_of_length_pos (Nat.zero_lt_of_lt several)
    obtain ⟨reported, ofCall⟩ := List.mem_filter.mp member
    have isCall := callKind?_of_report forest built reported
    rw [of_decide_eq_true ofCall] at isCall
    have callers := reports_build_empty forest built isCall
    have sizes := congrArg List.length callers
    rw [List.length_map, List.length_map] at sizes
    rw [callers]
    apply visited_per_constructor forest roots distinct
    rwa [← sizes]
  refine ⟨nodup_call_caller fun call => ?_, several⟩
  cases reported : g.reports.filter (·.call = call) with
  | nil => exact List.nodup_nil
  | cons r rest =>
    cases rest with
    | nil => exact List.nodup_singleton _
    | cons r' rest =>
      obtain ⟨f, type, -, callers⟩ := several call (by simp [reported])
      rw [← reported, callers]
      exact (constructorsOf_nodup forest type).map fun _ _ => Option.some.inj

/-- A class with two constructors and a field. In the initializer stand a call and a class whose
method holds a call as well. -/
def constructedTwice : Program :=
  Program.empty
    |>.addUnit { path := "A.java" }
    |>.append ⟨0⟩ (.type { kind := .classType, name := "A" }) .unknown
    |>.append ⟨1⟩ (.callable { kind := .constructor, name := "A" }) .unknown
    |>.append ⟨1⟩ (.callable { kind := .constructor, name := "A", parameters := [⟨"int", "i"⟩] })
      .unknown
    |>.append ⟨1⟩ (.callable (.method "m")) .unknown
    |>.append ⟨1⟩ (.field { typeName := "B", names := ["b"] }) .unknown
    |>.append ⟨5⟩ (.methodCall { name := "m" }) .unknown
    |>.append ⟨5⟩ (.type { kind := .classType, name := "B" }) .unknown
    |>.append ⟨7⟩ (.callable (.method "n")) .unknown
    |>.append ⟨8⟩ (.statement (.other "expression_statement")) .unknown
    |>.append ⟨9⟩ (.methodCall { name := "m" }) .unknown

theorem constructedTwice_grown : constructedTwice.Grown := by
  unfold constructedTwice
  repeat' constructor

def constructedTwiceGraph : CallGraph where
  vertices := [⟨⟨2⟩, .constructor, "A()", some "A"⟩, ⟨⟨3⟩, .constructor, "A(int)", some "A"⟩,
    ⟨⟨4⟩, .method, "m()", some "A"⟩, ⟨⟨8⟩, .method, "n()", some "B"⟩]
  bySignature :=
    ⟨[("A()", [⟨⟨2⟩, .constructor, "A()", some "A"⟩]),
      ("A(int)", [⟨⟨3⟩, .constructor, "A(int)", some "A"⟩]),
      ("m()", [⟨⟨4⟩, .method, "m()", some "A"⟩]), ("n()", [⟨⟨8⟩, .method, "n()", some "B"⟩])]⟩
  links := [⟨⟨2⟩, ⟨4⟩, { kind := .methodCall, call := ⟨6⟩, point := ⟨0, ⟨2⟩, ⟨5⟩⟩ }⟩,
    ⟨⟨8⟩, ⟨4⟩, { kind := .methodCall, call := ⟨10⟩, point := ⟨2, ⟨8⟩, ⟨9⟩⟩ }⟩,
    ⟨⟨3⟩, ⟨4⟩, { kind := .methodCall, call := ⟨6⟩, point := ⟨1, ⟨3⟩, ⟨5⟩⟩ }⟩]
  reports := [⟨⟨6⟩, .methodCall, some ⟨2⟩, .linked 1⟩, ⟨⟨10⟩, .methodCall, some ⟨8⟩, .linked 1⟩,
    ⟨⟨6⟩, .methodCall, some ⟨3⟩, .linked 1⟩]
  built := true

theorem constructedTwice_built :
    build (.reference constructedTwice {}) empty constructedTwice.units =
      (constructedTwiceGraph, .ok ()) := by
  rw [build_eq constructedTwice_grown.forest rfl (by decide)]
  cbv

/-- The call in the initializer has two reports, the call in the class below it one. -/
theorem call_reported_once_per_caller_constructedTwice :
    constructedTwice.units.Nodup ∧
      build (.reference constructedTwice {}) empty constructedTwice.units =
        (constructedTwiceGraph, .ok ()) ∧
      (constructedTwiceGraph.reports.map fun r => (r.call, r.caller)).Nodup ∧
      ∃ f type, Initializes constructedTwice f type ⟨6⟩ ∧
        (constructedTwice.constructorsOf type).map some = [some ⟨2⟩, some ⟨3⟩] := by
  have distinct : constructedTwice.units.Nodup := by decide
  obtain ⟨once, several⟩ := call_reported_once_per_caller (s := .reference constructedTwice {})
    constructedTwice_grown (List.Subset.refl _) distinct constructedTwice_built
  obtain ⟨f, type, initializes, callers⟩ := several ⟨6⟩ (by decide)
  exact ⟨distinct, constructedTwice_built, once, f, type, initializes, callers.symm⟩

end JavaCallGraph.CallGraph
