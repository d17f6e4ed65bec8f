import JavaCallGraph.Proofs.Program.Arena
import Mathlib.Data.List.Flatten

/-!
The order in which the nodes of a program are listed.

The listing of all units holds every node once. A subtree stands in one piece behind its root, and
the subtrees of siblings follow each other by age.
-/

namespace JavaCallGraph.Program

open scoped List

variable {p : Program}

/-- In a list without repetition no two elements stand in both orders. -/
theorem not_sublist_swap {l : List NodeId} (nodup : l.Nodup) {a b : NodeId} (first : [a, b] <+ l) :
    ¬[b, a] <+ l := by
  induction l with
  | nil => cases first
  | cons x l ih =>
    obtain ⟨fresh, nodup⟩ := List.nodup_cons.mp nodup
    intro second
    cases first with
    | cons _ first =>
      cases second with
      | cons _ second => exact ih nodup first second
      | cons_cons _ _ => exact fresh (first.subset (by simp))
    | cons_cons _ first =>
      cases second with
      | cons _ second => exact fresh (second.subset (by simp))
      | cons_cons _ second => exact fresh (second.subset (by simp))

/-- The entries of one node in a list of entries by owner. -/
theorem entries_of_owner {owners : List NodeId} (nodup : owners.Nodup)
    {entries : NodeId → List NodeId} {t : NodeId} (none : t ∉ owners → entries t = []) :
    ((owners.flatMap fun u => (entries u).map (u, ·)).filter (·.1 = t)).map (·.2) = entries t := by
  have kept : ∀ u, (((entries u).map (u, ·)).filter (·.1 = t)).map (·.2) =
      if u = t then entries u else [] := by
    intro u
    by_cases same : u = t <;> simp [same, List.filter_map, Function.comp_def]
  simp only [List.filter_flatMap, List.map_flatMap, kept]
  by_cases listed : t ∈ owners
  · obtain ⟨before, after, rfl⟩ := List.append_of_mem listed
    have apart := List.nodup_append.mp nodup
    have early : before.flatMap (fun u => if u = t then entries u else []) = [] := by
      apply List.flatMap_eq_nil_iff.mpr
      exact fun u member => if_neg (apart.2.2 u member t List.mem_cons_self)
    have late : after.flatMap (fun u => if u = t then entries u else []) = [] := by
      apply List.flatMap_eq_nil_iff.mpr
      rintro u member
      apply if_neg
      rintro rfl
      exact (List.nodup_cons.mp apart.2.1).1 member
    rw [List.flatMap_append, List.flatMap_cons, early, late]
    simp
  · rw [none listed]
    apply List.flatMap_eq_nil_iff.mpr
    rintro u member
    apply if_neg
    rintro rfl
    exact listed member

namespace Forest

theorem mem_allUnder_units (forest : p.Forest) {id : NodeId} :
    id ∈ p.allUnder p.units ↔ p.has id := by
  rw [allUnder, List.mem_flatMap]
  refine ⟨?_, forest.exists_unit_above⟩
  rintro ⟨u, unit, below⟩
  rcases forest.mem_descendants.mp below with rfl | higher
  · exact (forest.mem_units.mp unit).1
  · cases above : p.parent? id with
    | none => simp [ancestors_root above] at higher
    | some q => exact has_of_parent? above

theorem units_nodup (forest : p.Forest) : p.units.Nodup := by
  refine forest.units_sorted.imp ?_
  rintro u v older rfl
  exact Nat.lt_irrefl _ older

theorem allUnder_units_nodup (forest : p.Forest) : (p.allUnder p.units).Nodup := by
  apply List.nodup_flatMap.mpr
  refine ⟨fun u _ => forest.descendants_nodup u, forest.units_nodup.pairwise_of_forall_ne ?_⟩
  intro u unit v unit' apart n below below'
  have present : p.has n := forest.mem_allUnder_units.mp (List.mem_flatMap.mpr ⟨u, unit, below⟩)
  have root : ∀ {w}, w ∈ p.units → n ∈ p.descendants w → w ∈ p.lineage n ∧ p.parent? w = none :=
    fun unit below => ⟨forest.mem_descendants_iff.mp below, (forest.mem_units.mp unit).2⟩
  exact apart ((forest.root_unique present).unique (root unit below) (root unit' below'))

theorem descendants_sublist (forest : p.Forest) {r n : NodeId} (below : n ∈ p.descendants r) :
    p.descendants n <+ p.descendants r := by
  induction r using forest.descend with
  | step r ih =>
    rw [forest.descendants_eq] at below
    rcases List.mem_cons.mp below with rfl | lower
    · exact List.Sublist.refl _
    · obtain ⟨c, child, inside⟩ := List.mem_flatMap.mp lower
      have part : p.descendants c <+ (p.children r).flatMap p.descendants :=
        List.sublist_flatten_of_mem (List.mem_map_of_mem child)
      rw [forest.descendants_eq r]
      exact ((ih c child inside).trans part).cons r

theorem descendants_sublist_allUnder (forest : p.Forest) {n : NodeId} (present : p.has n) :
    p.descendants n <+ p.allUnder p.units := by
  obtain ⟨u, unit, below⟩ := forest.exists_unit_above present
  exact (forest.descendants_sublist below).trans
    (List.sublist_flatten_of_mem (List.mem_map_of_mem unit))

/-- All that lies in a node is listed before the younger siblings of the node. -/
theorem listed_before_sibling (forest : p.Forest) {a b n q : NodeId}
    (first : p.parent? a = some q) (second : p.parent? b = some q) (older : a.index < b.index)
    (below : n ∈ p.descendants a) : [n, b] <+ p.allUnder p.units := by
  have siblings : [a, b] <+ p.children q := by
    obtain ⟨before, after, children⟩ := List.append_of_mem (forest.mem_children.mpr first)
    have sorted := forest.children_sorted q
    have member := forest.mem_children.mpr second
    rw [children] at sorted member ⊢
    have later : b ∈ after := by
      rcases List.mem_append.mp member with early | late
      · have := (List.pairwise_append.mp sorted).2.2 b early a List.mem_cons_self
        omega
      · refine (List.mem_cons.mp late).resolve_left ?_
        rintro rfl
        exact Nat.lt_irrefl _ older
    exact ((List.singleton_sublist.mpr later).cons_cons a).trans (List.sublist_append_right _ _)
  have nodes : [n, b] <+ [a, b].flatMap p.descendants := by
    have self : b ∈ p.descendants b := forest.mem_descendants.mpr (.inl rfl)
    simpa using (List.singleton_sublist.mpr below).append (List.singleton_sublist.mpr self)
  have present := forest.has_of_child first
  calc [n, b] <+ [a, b].flatMap p.descendants := nodes
    _ <+ (p.children q).flatMap p.descendants := siblings.flatMap _
    _ <+ p.descendants q := by rw [forest.descendants_eq q]; exact List.sublist_cons_self _ _
    _ <+ p.allUnder p.units := forest.descendants_sublist_allUnder present

end Forest

end JavaCallGraph.Program
