import JavaCallGraph.Proofs.TypeNames

/-!
Units that are added behind a program.

A new unit leaves the nodes that were there as they are, and what lies above a new node is new. So
the types of a name that it declares are listed behind the others, and none of them is in scope at
an old node or in its unit. If the new unit is of another package, none is in its package either,
and the name still means what it meant.
-/

namespace JavaCallGraph

namespace Program

variable {p q : Program} {id c x : NodeId}

/-- The second program is the first with another unit behind it, and anything below that unit. -/
structure AddsUnit (p q : Program) : Prop where
  grown : q.Grown
  kept : ∀ {id}, p.has id → q.get? id = p.get? id
  units : q.units = p.units ++ [p.nextId]

theorem addsUnit_of_addSource (grown : p.Grown) {s : Source} {unit : NodeId}
    (added : p.addSource s = .ok (unit, q)) : p.AddsUnit q := by
  obtain ⟨tree, -, -, rfl⟩ := addSource_eq_ok.mp added
  constructor
  case grown =>
    rw [← Java.lowerSource_graft]
    exact Java.grown_lowerSource grown
  case kept => exact get?_graft_left p _
  case units =>
    rw [← Java.lowerSource_graft]
    exact Java.units_lowerSource

namespace AddsUnit

/-! ### Old nodes -/

theorem kind? (adds : p.AddsUnit q) (present : p.has id) : q.kind? id = p.kind? id := by
  rw [Program.kind?, adds.kept present, Program.kind?]

theorem parent? (adds : p.AddsUnit q) (present : p.has id) : q.parent? id = p.parent? id := by
  rw [Program.parent?, adds.kept present, Program.parent?]

theorem children (adds : p.AddsUnit q) (present : p.has id) : q.children id = p.children id := by
  rw [Program.children, adds.kept present, Program.children]

theorem copied (adds : p.AddsUnit q) : p.Copied q 0 := by
  apply copied_of_outline?
  intro id present
  rw [outline?, adds.kept present, outline?]

theorem lineage (adds : p.AddsUnit q) (forest : p.Forest) (present : p.has id) :
    q.lineage id = p.lineage id := by
  simpa [NodeId.shift_zero] using adds.copied.lineage forest present

theorem descendants (adds : p.AddsUnit q) (forest : p.Forest) (present : p.has id) :
    q.descendants id = p.descendants id := by
  have below := adds.copied.descendants forest (fun present => by
    simpa [NodeId.shift_zero] using adds.children present) present
  simpa [NodeId.shift_zero] using below

theorem unitOf? (adds : p.AddsUnit q) (forest : p.Forest) (present : p.has id) :
    q.unitOf? id = p.unitOf? id := by
  rw [Program.unitOf?, adds.lineage forest present, Program.unitOf?]
  apply List.find?_congr
  intro a line
  rw [isUnit, adds.kind? (forest.has_of_mem_lineage present line), isUnit]

theorem package? (adds : p.AddsUnit q) (forest : p.Forest) (present : p.has id) :
    q.package? id = p.package? id := by
  rw [Program.package?, unit?, adds.unitOf? forest present, Program.package?, unit?]
  cases found : p.unitOf? id with
  | none => rfl
  | some u =>
    have line := List.mem_of_find?_eq_some found
    rw [Option.bind_some, adds.kind? (forest.has_of_mem_lineage present line), Option.bind_some]

/-! ### New nodes -/

/-- What lies in an old node is old. -/
theorem has_of_old_above (adds : p.AddsUnit q) (forest : p.Forest) {a : NodeId}
    (line : a ∈ q.lineage c) (old : p.has a) : p.has c := by
  induction c using adds.grown.forest.climb with
  | step c ih =>
    rcases List.mem_cons.mp line with rfl | higher
    · exact old
    · cases above : q.parent? c with
      | none => simp [Forest.ancestors_root above] at higher
      | some r =>
        rw [adds.grown.forest.ancestors_child above] at higher
        have child : c ∈ q.children r := adds.grown.forest.mem_children.mpr above
        rw [adds.children (ih r above higher)] at child
        exact has_iff.mpr (forest.child_lt child).2

theorem allUnder_units (adds : p.AddsUnit q) (forest : p.Forest) :
    q.allUnder q.units = p.allUnder p.units ++ q.descendants p.nextId := by
  rw [allUnder, adds.units, List.flatMap_append, List.flatMap_singleton, allUnder]
  congr 1
  apply List.flatMap_congr
  intro u unit
  exact adds.descendants forest (forest.mem_units.mp unit).1

theorem not_has_of_mem_descendants (adds : p.AddsUnit q) (forest : p.Forest)
    (below : c ∈ q.descendants p.nextId) : ¬p.has c := by
  intro old
  have line := adds.grown.forest.mem_descendants_iff.mp below
  rw [adds.lineage forest old] at line
  exact absurd (forest.has_of_mem_lineage old line) (by simp [has, nextId])

end AddsUnit

end Program

namespace Hierarchy

variable {p q : Program} {x c t : NodeId} {name : String}

/-! ### What a name means -/

/-- Types that fail all tests but the last do not count behind the one that was chosen. -/
theorem choose_append {old new : List NodeId}
    (nestedOld : ∀ c ∈ old, nested q x c = nested p x c)
    (unitOld : ∀ c ∈ old, sameUnit q x c = sameUnit p x c)
    (packageOld : ∀ c ∈ old, samePackage q x c = samePackage p x c)
    (fail : ∀ c ∈ new, ¬nested q x c ∧ ¬sameUnit q x c ∧ ¬samePackage q x c)
    (chosen : choose p x old = some t) : choose q x (old ++ new) = some t := by
  have found : ∀ {test test' : NodeId → Bool}, (∀ c ∈ old, test' c = test c) →
      (∀ c ∈ new, ¬test' c) → (old ++ new).find? test' = old.find? test := by
    intro test test' same fail
    rw [List.find?_append, List.find?_congr same, List.find?_eq_none.mpr fail, Option.or_none]
  have last : (old ++ new).find? (fun _ => true) = old.find? fun _ => true := by
    cases old with
    | nil => cases chosen
    | cons first rest => rfl
  rw [choose_eq, preferences] at chosen ⊢
  simp only [List.findSome?_cons, last, found nestedOld fun c member => (fail c member).1,
    found unitOld fun c member => (fail c member).2.1,
    found packageOld fun c member => (fail c member).2.2] at chosen ⊢
  exact chosen

theorem typesNamed_of_addsUnit (grown : p.Grown) (adds : p.AddsUnit q) (name : String) :
    ∃ new, (build q).typesNamed name = (build p).typesNamed name ++ new ∧
      (∀ c ∈ (build p).typesNamed name, p.has c) ∧ ∀ c ∈ new, q.has c ∧ ¬p.has c := by
  have forest := grown.forest
  have declares : ∀ c ∈ p.allUnder p.units,
      q.declaresType (TypeName.simple name) c = p.declaresType (TypeName.simple name) c := by
    intro c listed
    have kind := adds.kind? (forest.mem_allUnder_units.mp listed)
    rw [Program.declaresType, Program.typeDecl?, kind, Program.declaresType, Program.typeDecl?]
  refine ⟨(q.descendants p.nextId).filter (q.declaresType (TypeName.simple name)), ?_, ?_, ?_⟩
  · rw [typesNamed_eq, adds.allUnder_units forest, List.filter_append, typesNamed_eq,
      List.filter_congr declares]
  · intro c declared
    rw [typesNamed_eq] at declared
    exact forest.mem_allUnder_units.mp (List.mem_filter.mp declared).1
  · intro c declared
    have below := (List.mem_filter.mp declared).1
    refine ⟨?_, adds.not_has_of_mem_descendants forest below⟩
    apply adds.grown.forest.mem_allUnder_units.mp
    rw [adds.allUnder_units forest]
    exact List.mem_append_right _ below

/-- A type of a new unit stands in no scope, unit or package of an old node. -/
theorem foreign_fails (grown : p.Grown) (adds : p.AddsUnit q) (present : p.has x)
    (foreign : ∀ id u, ¬p.has id → q.kind? id = some (.unit u) → u.package ≠ p.package? x)
    (listed : q.has c) (new : ¬p.has c) :
    ¬nested q x c ∧ ¬sameUnit q x c ∧ ¬samePackage q x c := by
  have forest := grown.forest
  have newAbove : ∀ {a}, a ∈ q.lineage c → ¬p.has a :=
    fun line old => new (adds.has_of_old_above forest line old)
  obtain ⟨u, unit, found, line, kind⟩ := adds.grown.exists_unit listed
  refine ⟨?_, ?_, ?_⟩
  · rw [nested_iff adds.grown.forest]
    rintro ⟨r, around, above⟩
    rw [adds.lineage forest present] at around
    apply newAbove (adds.grown.forest.parent_mem_lineage above)
    exact forest.has_of_mem_lineage present around
  · intro same
    have same : p.unitOf? x = some u := by
      rw [← adds.unitOf? forest present, ← found]
      exact (beq_iff_eq.mp same).symm
    apply newAbove line
    exact forest.has_of_mem_lineage present (List.mem_of_find?_eq_some same)
  · intro same
    apply foreign u unit (newAbove line) kind
    have read : q.package? c = unit.package := by
      rw [Program.package?, Program.unit?, found, Option.bind_some, kind]
      rfl
    rw [← read, ← adds.package? forest present]
    exact beq_iff_eq.mp same

/-- A unit of another package behind a program leaves the meaning of a name as it is. -/
theorem foreign_unit_keeps_names (grown : p.Grown) (adds : p.AddsUnit q) (present : p.has x)
    (foreign : ∀ id u, ¬p.has id → q.kind? id = some (.unit u) → u.package ≠ p.package? x)
    (resolved : (build p).resolveTypeName? x name = some t) :
    (build q).resolveTypeName? x name = some t := by
  have forest := grown.forest
  obtain ⟨new, listed, old, fresh⟩ := typesNamed_of_addsUnit grown adds name
  have around := adds.lineage forest present
  rw [resolveTypeName?, listed]
  refine choose_append (p := p) (q := q) ?_ ?_ ?_ ?_ resolved
  · intro c declared
    rw [nested, adds.parent? (old c declared), around, nested]
  · intro c declared
    rw [sameUnit, adds.unitOf? forest (old c declared), adds.unitOf? forest present, sameUnit]
  · intro c declared
    rw [samePackage, adds.package? forest (old c declared), adds.package? forest present,
      samePackage]
  · intro c declared
    exact foreign_fails grown adds present foreign (fresh c declared).1 (fresh c declared).2

/-- A class `B` in one package and a class `X` in another. -/
def twoPackages : Program :=
  Program.empty
    |>.addUnit { path := "a/B.java", package := some "a" }
    |>.append ⟨0⟩ (.type { kind := .classType, name := "B" }) .unknown
    |>.addUnit { path := "c/X.java", package := some "c" }
    |>.append ⟨2⟩ (.type { kind := .classType, name := "X" }) .unknown

theorem twoPackages_grown : twoPackages.Grown := by
  unfold twoPackages
  repeat' constructor

/-- The only unit of a file without a package, wherever it stands. -/
theorem package_plain (p : Program) (hash : String) {id : NodeId} {u : CompilationUnit}
    (new : ¬p.has id)
    (unit : (p.graft (Source.plainProgram hash)).kind? id = some (.unit u)) : u.package = none := by
  obtain ⟨⟨i⟩, rfl⟩ := NodeId.exists_shift (Nat.le_of_not_lt (mt Program.has_iff.mpr new))
  rw [Program.kind?, Program.get?_graft_right] at unit
  cases i with
  | zero =>
    cases unit
    rfl
  | succ i => cases i <;> cases unit

/-- A class `B` of no package behind these is a second type of the name, but in `X` the name still
means the first. -/
theorem foreign_unit_keeps_names_plain :
    ∃ q, twoPackages.addSource .plain = .ok (⟨4⟩, q) ∧
      (build twoPackages).resolveTypeName? ⟨3⟩ "B" = some ⟨1⟩ ∧
      (build q).resolveTypeName? ⟨3⟩ "B" = some ⟨1⟩ := by
  obtain ⟨hash, added⟩ := twoPackages.addSource_plain
  have resolved : (build twoPackages).resolveTypeName? ⟨3⟩ "B" = some ⟨1⟩ := rfl
  refine ⟨_, added, resolved, ?_⟩
  apply foreign_unit_keeps_names twoPackages_grown
    (Program.addsUnit_of_addSource twoPackages_grown added) rfl _ resolved
  intro id u new unit
  rw [package_plain twoPackages _ new unit]
  decide

end Hierarchy

end JavaCallGraph
