import JavaCallGraph.Proofs.Program.Forest

/-!
Climbing and descending in a forest.

The two listings `ancestors` and `descendants` are each other's converse. Facts about them are
proved by `Forest.climb`, from parents to children, or by `Forest.descend`, from children to
parents.
-/

namespace JavaCallGraph.Program

variable {p : Program}

theorem isType_iff {n : NodeId} : p.isType n ↔ ∃ d, p.kind? n = some (.type d) := by
  cases kind : p.kind? n with
  | none => simp [isType, typeDecl?, kind]
  | some k => cases k <;> simp [isType, typeDecl?, kind, NodeKind.type?]

theorem isCallable_iff {n : NodeId} : p.isCallable n ↔ ∃ d, p.kind? n = some (.callable d) := by
  cases kind : p.kind? n with
  | none => simp [isCallable, callable?, kind]
  | some k => cases k <;> simp [isCallable, callable?, kind, NodeKind.callable?]

theorem isField_iff {n : NodeId} : p.isField n ↔ ∃ d, p.kind? n = some (.field d) := by
  cases kind : p.kind? n with
  | none => simp [isField, fieldDecl?, kind]
  | some k => cases k <;> simp [isField, fieldDecl?, kind, NodeKind.field?]

theorem isDeclaration_iff {n : NodeId} : p.isDeclaration n ↔ p.isType n ∨ p.isCallable n := by
  unfold isDeclaration isType isCallable typeDecl? callable?
  cases p.kind? n with
  | none => simp
  | some k => cases k <;> simp [NodeKind.isDeclaration, NodeKind.type?, NodeKind.callable?]

theorem isDeclaration_of_isCallable {d : NodeId} (callable : p.isCallable d) :
    p.isDeclaration d :=
  isDeclaration_iff.mpr (.inr callable)

theorem kind?_of_callKind? {n : NodeId} (isCall : p.callKind? n = some .methodCall) :
    ∃ c, p.kind? n = some (.methodCall c) := by
  obtain ⟨k, kind, form⟩ := Option.bind_eq_some_iff.mp isCall
  cases k with
  | methodCall c => exact ⟨c, kind⟩
  | _ => simp [NodeKind.callKind?] at form

namespace Forest

/-- What passes from every parent to its children holds everywhere. -/
theorem climb (forest : p.Forest) {motive : NodeId → Prop}
    (step : ∀ c, (∀ q, p.parent? c = some q → motive q) → motive c) (c : NodeId) : motive c := by
  obtain ⟨i⟩ := c
  induction i using Nat.strongRecOn with
  | ind i ih => exact step ⟨i⟩ fun q above => ih q.index (forest.parent_lt above)

theorem not_mem_of_parent? (forest : p.Forest) {roots : List NodeId} (rooted : roots ⊆ p.units)
    {c q : NodeId} (above : p.parent? c = some q) : c ∉ roots := by
  intro member
  rw [(forest.mem_units.mp (rooted member)).2] at above
  cases above

theorem child_lt (forest : p.Forest) {q c : NodeId} (member : c ∈ p.children q) :
    q.index < c.index ∧ c.index < p.size := by
  have above := forest.mem_children.mp member
  exact ⟨forest.parent_lt above, has_iff.mp (has_of_parent? above)⟩

/-- What passes from all children to their parent holds everywhere. -/
theorem descend (forest : p.Forest) {motive : NodeId → Prop}
    (step : ∀ id, (∀ c ∈ p.children id, motive c) → motive id) (id : NodeId) : motive id := by
  induction h : p.size - id.index using Nat.strongRecOn generalizing id with
  | ind left ih =>
    refine step id fun c member => ih (p.size - c.index) ?_ c rfl
    have := forest.child_lt member
    omega

theorem has_of_child (forest : p.Forest) {c q : NodeId} (above : p.parent? c = some q) : p.has q :=
  has_of_mem_children (forest.mem_children.mpr above)

theorem children_nodup (forest : p.Forest) (q : NodeId) : (p.children q).Nodup := by
  refine (forest.children_sorted q).imp ?_
  rintro a b younger rfl
  exact Nat.lt_irrefl _ younger

/-! ### Ancestors -/

theorem chain_eq (forest : p.Forest) {m n : Nat} {id : NodeId} (hm : id.index < m)
    (hn : id.index < n) : p.chain m (some id) = p.chain n (some id) := by
  induction m generalizing n id with
  | zero => omega
  | succ m ih =>
    obtain ⟨n, rfl⟩ : ∃ k, n = k + 1 := ⟨n - 1, by omega⟩
    simp only [chain, List.cons.injEq, true_and]
    cases above : p.parent? id with
    | none => cases m <;> cases n <;> rfl
    | some q =>
      have older := forest.parent_lt above
      exact ih (by omega) (by omega)

theorem ancestors_root {c : NodeId} (root : p.parent? c = none) : p.ancestors c = [] := by
  rw [ancestors, root]
  cases p.size <;> rfl

theorem ancestors_child (forest : p.Forest) {c q : NodeId} (above : p.parent? c = some q) :
    p.ancestors c = q :: p.ancestors q := by
  have older := forest.parent_lt above
  have present := has_iff.mp (has_of_parent? above)
  have unbounded : p.chain p.size (some q) = p.chain (p.size + 1) (some q) :=
    forest.chain_eq (by omega) (by omega)
  rw [ancestors, above, unbounded]
  rfl

/-- A child of a node is no root, so a root that it lies below is also one of its parent. -/
theorem parent_beneath (forest : p.Forest) {roots : List NodeId} (rooted : roots ⊆ p.units)
    {c q : NodeId} (above : p.parent? c = some q)
    (beneath : ∃ u ∈ roots, c = u ∨ u ∈ p.ancestors c) :
    ∃ u ∈ roots, q = u ∨ u ∈ p.ancestors q := by
  obtain ⟨u, root, rfl | higher⟩ := beneath
  · exact absurd root (forest.not_mem_of_parent? rooted above)
  · rw [forest.ancestors_child above, List.mem_cons] at higher
    exact ⟨u, root, higher.imp_left Eq.symm⟩

theorem lt_of_mem_ancestors (forest : p.Forest) {a c : NodeId} (member : a ∈ p.ancestors c) :
    a.index < c.index := by
  induction c using forest.climb with
  | step c ih =>
    cases above : p.parent? c with
    | none => simp [ancestors_root above] at member
    | some q =>
      have older := forest.parent_lt above
      rw [forest.ancestors_child above, List.mem_cons] at member
      rcases member with rfl | higher
      · exact older
      · exact Nat.lt_trans (ih q above higher) older

theorem le_of_mem_lineage (forest : p.Forest) {a n : NodeId} (member : a ∈ p.lineage n) :
    a.index ≤ n.index := by
  rcases List.mem_cons.mp member with rfl | higher
  · exact Nat.le_refl _
  · exact Nat.le_of_lt (forest.lt_of_mem_ancestors higher)

theorem has_of_mem_lineage (forest : p.Forest) {r n : NodeId} (present : p.has n)
    (line : r ∈ p.lineage n) : p.has r := by
  have := forest.le_of_mem_lineage line
  rw [has_iff] at present ⊢
  omega

theorem has_of_mem_ancestors (forest : p.Forest) {r n : NodeId} (present : p.has n)
    (above : r ∈ p.ancestors n) : p.has r :=
  forest.has_of_mem_lineage present (List.mem_cons_of_mem n above)

theorem has_of_ancestor {a n : NodeId} (above : a ∈ p.ancestors n) : p.has n := by
  by_contra absent
  have root : p.parent? n = none := by simp [parent?, get?_eq_none_iff.mpr absent]
  rw [ancestors_root root] at above
  cases above

theorem mem_ancestors_of_child (forest : p.Forest) {n c : NodeId} (child : c ∈ p.children n) :
    n ∈ p.ancestors c := by
  rw [forest.ancestors_child (forest.mem_children.mp child)]
  exact List.mem_cons_self

/-- As `descend`, with all that is strictly below a node. -/
theorem descend_below (forest : p.Forest) {motive : NodeId → Prop}
    (step : ∀ n, (∀ m, n ∈ p.ancestors m → motive m) → motive n) (n : NodeId) : motive n := by
  induction left : p.size - n.index using Nat.strongRecOn generalizing n with
  | ind left ih =>
    apply step
    intro m below
    have higher := forest.lt_of_mem_ancestors below
    have small := has_iff.mp (has_of_ancestor below)
    exact ih (p.size - m.index) (by omega) m rfl

theorem ancestors_trans (forest : p.Forest) {a b c : NodeId} (first : a ∈ p.ancestors b)
    (second : b ∈ p.ancestors c) : a ∈ p.ancestors c := by
  induction c using forest.climb with
  | step c ih =>
    cases above : p.parent? c with
    | none => simp [ancestors_root above] at second
    | some q =>
      rw [forest.ancestors_child above, List.mem_cons] at second ⊢
      rcases second with rfl | higher
      · exact .inr first
      · exact .inr (ih q above higher)

/-- The nearest node above with a property: the parent, or else the parent's own nearest. -/
theorem find?_ancestors_child (forest : p.Forest) {c q : NodeId} (above : p.parent? c = some q)
    (test : NodeId → Bool) :
    (p.ancestors c).find? test = if test q then some q else (p.ancestors q).find? test := by
  rw [forest.ancestors_child above, List.find?_cons]
  cases test q <;> rfl

theorem enclosingCallable?_child (forest : p.Forest) {c q : NodeId}
    (above : p.parent? c = some q) :
    p.enclosingCallable? c = if p.isCallable q then some q else p.enclosingCallable? q :=
  forest.find?_ancestors_child above p.isCallable

theorem enclosingTypes_child (forest : p.Forest) {c q : NodeId} (above : p.parent? c = some q) :
    p.enclosingTypes c = if p.isType q then q :: p.enclosingTypes q else p.enclosingTypes q := by
  rw [enclosingTypes, forest.ancestors_child above, List.filter_cons]
  rfl

/-! ### Descendants -/

theorem preorder_eq (forest : p.Forest) {m n : Nat} {id : NodeId} (hm : p.size - id.index < m)
    (hn : p.size - id.index < n) : p.preorder m id = p.preorder n id := by
  induction m generalizing n id with
  | zero => omega
  | succ m ih =>
    obtain ⟨n, rfl⟩ : ∃ k, n = k + 1 := ⟨n - 1, by omega⟩
    simp only [preorder, List.cons.injEq, true_and]
    refine List.flatMap_congr fun c member => ?_
    have := forest.child_lt member
    exact ih (by omega) (by omega)

theorem descendants_eq (forest : p.Forest) (id : NodeId) :
    p.descendants id = id :: (p.children id).flatMap p.descendants := by
  rw [descendants, preorder]
  congr 1
  refine List.flatMap_congr fun c member => ?_
  have := forest.child_lt member
  exact forest.preorder_eq (by omega) (by omega)

/-- A node that lies strictly below another lies below one of its children. -/
theorem way_down (forest : p.Forest) {r n : NodeId} (below : r ∈ p.ancestors n) :
    ∃ c ∈ p.children r, n = c ∨ c ∈ p.ancestors n := by
  induction n using forest.climb with
  | step n ih =>
    cases above : p.parent? n with
    | none => simp [ancestors_root above] at below
    | some q =>
      rw [forest.ancestors_child above, List.mem_cons] at below
      rcases below with rfl | higher
      · exact ⟨n, forest.mem_children.mpr above, .inl rfl⟩
      · obtain ⟨c, child, way⟩ := ih q above higher
        refine ⟨c, child, .inr ?_⟩
        rw [forest.ancestors_child above, List.mem_cons]
        exact way.imp_left Eq.symm

theorem mem_descendants (forest : p.Forest) {r n : NodeId} :
    n ∈ p.descendants r ↔ n = r ∨ r ∈ p.ancestors n := by
  constructor
  · intro member
    induction r using forest.descend with
    | step r ih =>
      rw [forest.descendants_eq, List.mem_cons, List.mem_flatMap] at member
      rcases member with same | ⟨c, child, below⟩
      · exact .inl same
      · have direct : r ∈ p.ancestors c := by
          rw [forest.ancestors_child (forest.mem_children.mp child)]
          simp
        rcases ih c child below with rfl | higher
        · exact .inr direct
        · exact .inr (forest.ancestors_trans direct higher)
  · intro line
    induction r using forest.descend with
    | step r ih =>
      rw [forest.descendants_eq, List.mem_cons, List.mem_flatMap]
      rcases line with same | higher
      · exact .inl same
      · obtain ⟨c, child, way⟩ := forest.way_down higher
        exact .inr ⟨c, child, ih c child way⟩

theorem contains_iff (forest : p.Forest) {u c : NodeId} :
    p.contains u c ↔ c ∈ p.descendants u := by
  rw [forest.mem_descendants, contains]
  simp

theorem exists_unit_above (forest : p.Forest) {n : NodeId} (present : p.has n) :
    ∃ u ∈ p.units, n ∈ p.descendants u := by
  induction n using forest.climb with
  | step n ih =>
    cases above : p.parent? n with
    | none =>
      have root : n ∈ p.units := forest.mem_units.mpr ⟨present, above⟩
      exact ⟨n, root, forest.mem_descendants.mpr (.inl rfl)⟩
    | some q =>
      obtain ⟨u, root, below⟩ := ih q above (forest.has_of_child above)
      refine ⟨u, root, forest.mem_descendants.mpr (.inr ?_)⟩
      rw [forest.ancestors_child above, List.mem_cons]
      exact (forest.mem_descendants.mp below).imp_left Eq.symm

end Forest

end JavaCallGraph.Program
