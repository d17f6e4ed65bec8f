import JavaCallGraph.Proofs.Program.Listing

/-!
Programs that are numbered in pre-order.

A program is numbered in pre-order if every node stands below the node before it or below one on the
way up from there. What lies in a node then has the numbers from the node's own number on, without a
gap, and is listed by number.
-/

namespace JavaCallGraph.Program

/-- Increasing numbers from `first` on, each with its predecessor among them, leave no gap. -/
theorem eq_range'_of_closed {numbers : List Nat} {first : Nat} (sorted : numbers.Pairwise (· < ·))
    (closed : ∀ n ∈ numbers, n = first ∨ first < n ∧ n - 1 ∈ numbers) :
    numbers = List.range' first numbers.length := by
  induction numbers generalizing first with
  | nil => rfl
  | cons n rest ih =>
    obtain ⟨least, sorted⟩ := List.pairwise_cons.mp sorted
    obtain rfl : n = first := by
      refine (closed n List.mem_cons_self).resolve_right ?_
      rintro ⟨larger, before⟩
      rcases List.mem_cons.mp before with same | later
      · omega
      · have := least _ later
        omega
    have above : ∀ m ∈ rest, m = n + 1 ∨ n + 1 < m ∧ m - 1 ∈ rest := by
      intro m listed
      have larger := least m listed
      rcases closed m (List.mem_cons_of_mem n listed) with same | ⟨-, before⟩
      · omega
      · rcases List.mem_cons.mp before with same | later
        · exact .inl (by omega)
        · have := least _ later
          exact .inr ⟨by omega, later⟩
    rw [List.length_cons, List.range'_succ, ← ih sorted above]

/-- Every node stands below the node before it, or below one on the way up from there. -/
def Preordered (p : Program) : Prop := ∀ ⦃c q⦄, p.parent? c = some q → q ∈ p.lineage ⟨c.index - 1⟩

namespace Preordered

variable {p : Program} (ordered : p.Preordered) (forest : p.Forest)

include ordered forest

/-- What a node holds starts right behind the node. -/
theorem pred_mem_descendants {r n : NodeId} (below : n ∈ p.descendants r)
    (later : r.index < n.index) : ⟨n.index - 1⟩ ∈ p.descendants r := by
  rw [forest.mem_descendants_iff] at below ⊢
  cases above : p.parent? n with
  | none =>
    rw [Forest.lineage_root above, List.mem_singleton] at below
    exact absurd (congrArg NodeId.index below) (Nat.ne_of_lt later)
  | some q =>
    rw [forest.lineage_child above] at below
    rcases List.mem_cons.mp below with rfl | higher
    · exact absurd later (Nat.lt_irrefl _)
    · exact forest.lineage_trans higher (ordered above)

theorem mem_descendants_of_between {r m n : NodeId} (below : n ∈ p.descendants r)
    (low : r.index ≤ m.index) (high : m.index ≤ n.index) : m ∈ p.descendants r := by
  induction gap : n.index - m.index generalizing n with
  | zero =>
    have same : m = n := congrArg NodeId.mk (show m.index = n.index by omega)
    rwa [same]
  | succ left ih =>
    apply ih (ordered.pred_mem_descendants forest below (by omega))
    · change m.index ≤ n.index - 1
      omega
    · change n.index - 1 - m.index = left
      omega

/-- All that an older sibling holds is older. -/
theorem lt_of_siblings {a b q m n : NodeId} (first : p.parent? a = some q)
    (second : p.parent? b = some q) (older : a.index < b.index) (below : m ∈ p.descendants a)
    (below' : n ∈ p.descendants b) : m.index < n.index := by
  have least : b.index ≤ n.index := forest.le_of_mem_lineage (forest.mem_descendants_iff.mp below')
  by_contra high
  have inside : b ∈ p.descendants a :=
    ordered.mem_descendants_of_between forest below (by omega) (by omega)
  have same : a = b :=
    forest.eq_of_siblings first second (forest.mem_descendants_iff.mp inside) List.mem_cons_self
  exact Nat.lt_irrefl _ (same ▸ older)

theorem descendants_sorted (r : NodeId) : (p.descendants r).Pairwise (·.index < ·.index) := by
  induction r using forest.descend with
  | step r ih =>
    rw [forest.descendants_eq, List.pairwise_cons]
    constructor
    · intro n listed
      obtain ⟨c, child, below⟩ := List.mem_flatMap.mp listed
      have least := forest.le_of_mem_lineage (forest.mem_descendants_iff.mp below)
      exact Nat.lt_of_lt_of_le (forest.child_lt child).1 least
    · refine List.pairwise_flatMap.mpr ⟨ih, ?_⟩
      refine (List.Pairwise.and_mem.mp (forest.children_sorted r)).imp ?_
      rintro a b ⟨first, second, older⟩ m below n below'
      exact ordered.lt_of_siblings forest (forest.mem_children.mp first)
        (forest.mem_children.mp second) older below below'

/-- The nodes in a node are numbered from it on without a gap. -/
theorem descendants_eq (r : NodeId) :
    p.descendants r = (List.range' r.index (p.descendants r).length).map NodeId.mk := by
  have sorted : ((p.descendants r).map NodeId.index).Pairwise (· < ·) :=
    List.pairwise_map.mpr (ordered.descendants_sorted forest r)
  have closed : ∀ i ∈ (p.descendants r).map NodeId.index,
      i = r.index ∨ r.index < i ∧ i - 1 ∈ (p.descendants r).map NodeId.index := by
    intro i listed
    obtain ⟨n, below, rfl⟩ := List.mem_map.mp listed
    rcases Nat.eq_or_lt_of_le (forest.le_of_mem_lineage (forest.mem_descendants_iff.mp below)) with
      same | later
    · exact .inl same.symm
    · exact .inr ⟨later, List.mem_map_of_mem (ordered.pred_mem_descendants forest below later)⟩
  have numbers := eq_range'_of_closed sorted closed
  rw [List.length_map] at numbers
  rw [← numbers, List.map_map]
  exact (List.map_id _).symm

/-- The first node of a program with one unit holds all the nodes there are. -/
theorem descendants_unit {u : NodeId} (unit : p.units = [u]) (first : u.index = 0) :
    p.descendants u = p.ids := by
  have all : ∀ n, n ∈ p.descendants u ↔ p.has n := by
    intro n
    constructor
    · exact fun below => forest.mem_allUnder_units.mp (by simpa [allUnder, unit] using below)
    · intro present
      obtain ⟨v, root, below⟩ := forest.exists_unit_above present
      rw [unit, List.mem_singleton] at root
      rwa [← root]
  have listed := ordered.descendants_eq forest u
  rw [first, ← List.range_eq_range'] at listed
  have length : (p.descendants u).length = p.size := by
    refine eq_of_forall_lt_iff fun i => ?_
    have member := (all ⟨i⟩).trans has_iff
    rw [listed] at member
    simpa using member
  rw [listed, length, ids]

end Preordered

end JavaCallGraph.Program
