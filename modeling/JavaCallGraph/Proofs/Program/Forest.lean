import JavaCallGraph.Program.Ancestry
import Mathlib.Data.List.Nodup

/-!
Programs are forests.

Every insertion enters a new node below one that is already there, and enters it in both
directions. So the two directions of a link agree, a parent is older than its children, and the
roots are the units. Climbing and descending therefore come to an end by themselves: the bounds in
`ancestors` and `descendants` are never met, and both listings satisfy the plain recursive
equations.
-/

namespace JavaCallGraph.Program

/-! ### Reading after a change -/

theorem get?_modify (p : Program) (id x : NodeId) (f : Node → Node) :
    (p.modify id f).get? x = if x = id then (p.get? x).map f else p.get? x := by
  obtain ⟨i⟩ := id
  obtain ⟨j⟩ := x
  simp only [get?, modify, Array.getElem?_modify, NodeId.mk.injEq, eq_comm (a := i)]

theorem has_iff {p : Program} {id : NodeId} : p.has id ↔ id.index < p.size := by
  simp [has]

theorem mem_ids {p : Program} {id : NodeId} : id ∈ p.ids ↔ p.has id := by
  simp only [ids, List.mem_map, List.mem_range, has_iff]
  exact ⟨fun ⟨i, small, same⟩ => same ▸ small, fun small => ⟨id.index, small, rfl⟩⟩

theorem get?_eq_none_iff {p : Program} {id : NodeId} : p.get? id = none ↔ ¬p.has id := by
  rw [has_iff, Nat.not_lt, get?, Array.getElem?_eq_none_iff, size]

theorem get?_nextId (p : Program) : p.get? p.nextId = none := by
  simp [get?_eq_none_iff, has, nextId]

theorem has_of_get? {p : Program} {id : NodeId} {n : Node} (read : p.get? id = some n) :
    p.has id := by
  by_contra absent
  rw [get?_eq_none_iff.mpr absent] at read
  cases read

theorem node_eq_ok {p : Program} {id : NodeId} {n : Node} :
    p.node id = .ok n ↔ p.get? id = some n := by
  unfold node
  split <;> simp_all

theorem kind?_of_has {p : Program} {id : NodeId} (present : p.has id) :
    ∃ k, p.kind? id = some k := by
  cases read : p.get? id with
  | none => exact absurd present (get?_eq_none_iff.mp read)
  | some n => exact ⟨n.kind, by simp [kind?, read]⟩

theorem has_of_kind? {p : Program} {id : NodeId} {k : NodeKind} (kind : p.kind? id = some k) :
    p.has id := by
  obtain ⟨n, read, -⟩ := Option.map_eq_some_iff.mp kind
  exact has_of_get? read

theorem has_of_callKind? {p : Program} {id : NodeId} {kind : CallKind}
    (isCall : p.callKind? id = some kind) : p.has id := by
  obtain ⟨k, kindAt, -⟩ := Option.bind_eq_some_iff.mp isCall
  exact has_of_kind? kindAt

theorem has_of_parent? {p : Program} {id q : NodeId} (above : p.parent? id = some q) :
    p.has id := by
  obtain ⟨n, read, -⟩ := Option.bind_eq_some_iff.mp above
  exact has_of_get? read

theorem has_of_mem_children {p : Program} {id c : NodeId} (member : c ∈ p.children id) :
    p.has id := by
  cases read : p.get? id with
  | none => simp [children, read] at member
  | some n => exact has_of_get? read

theorem get?_addUnit (p : Program) (u : CompilationUnit) (x : NodeId) :
    (p.addUnit u).get? x = if x = p.nextId then some { kind := .unit u } else p.get? x := by
  obtain ⟨i⟩ := x
  simp [get?, addUnit, nextId, size, Array.getElem?_push]

theorem parent?_addUnit (p : Program) (u : CompilationUnit) (x : NodeId) :
    (p.addUnit u).parent? x = p.parent? x := by
  by_cases new : x = p.nextId
  · subst new
    simp [parent?, get?_addUnit, get?_nextId]
  · simp [parent?, get?_addUnit, new]

theorem children_addUnit (p : Program) (u : CompilationUnit) (x : NodeId) :
    (p.addUnit u).children x = p.children x := by
  by_cases new : x = p.nextId
  · subst new
    simp [children, get?_addUnit, get?_nextId]
  · simp [children, get?_addUnit, new]

theorem get?_append (p : Program) (parent x : NodeId) (k : NodeKind) (s : Span) :
    (p.append parent k s).get? x =
      (if x = p.nextId then some { kind := k, parent := some parent, span := s }
        else p.get? x).map fun n =>
          if x = parent then { n with children := n.children ++ [p.nextId] } else n := by
  obtain ⟨i⟩ := x
  simp only [append, get?_modify]
  simp only [get?, nextId, size, Array.getElem?_push, NodeId.mk.injEq]
  split <;> simp

theorem parent?_append (p : Program) (parent x : NodeId) (k : NodeKind) (s : Span) :
    (p.append parent k s).parent? x = if x = p.nextId then some parent else p.parent? x := by
  by_cases new : x = p.nextId
  · simp [parent?, get?_append, new, apply_ite Node.parent]
  · cases read : p.get? x <;> simp [parent?, get?_append, new, read, apply_ite Node.parent]

theorem children_append {p : Program} {parent : NodeId} (present : p.has parent) (x : NodeId)
    (k : NodeKind) (s : Span) :
    (p.append parent k s).children x =
      if x = parent then p.children x ++ [p.nextId] else p.children x := by
  have older : parent ≠ p.nextId := by
    rintro rfl
    simp [has, nextId] at present
  by_cases new : x = p.nextId
  · subst new
    simp [children, get?_append, get?_nextId, older.symm]
  · cases read : p.get? x with
    | none =>
      have apart : x ≠ parent := fun same => get?_eq_none_iff.mp read (same ▸ present)
      simp [children, get?_append, new, read, apart]
    | some n =>
      by_cases same : x = parent
      · subst same
        simp [children, get?_append, new, read]
      · simp [children, get?_append, new, read, same]

/-! ### The forest -/

/-- Both directions of every link agree, parents are older than their children, siblings stand in
order of age, and the roots are the units. -/
structure Forest (p : Program) : Prop where
  parent_lt : ∀ {c q}, p.parent? c = some q → q.index < c.index
  mem_children : ∀ {q c}, c ∈ p.children q ↔ p.parent? c = some q
  children_sorted : ∀ q, (p.children q).Pairwise (·.index < ·.index)
  mem_units : ∀ {u}, u ∈ p.units ↔ p.has u ∧ p.parent? u = none
  units_sorted : p.units.Pairwise (·.index < ·.index)

namespace Forest

theorem empty : Program.empty.Forest where
  parent_lt := by simp [parent?, get?, Program.empty]
  mem_children := by simp [parent?, children, get?, Program.empty]
  children_sorted := by simp [children, get?, Program.empty]
  mem_units := by simp [Program.empty, has, size]
  units_sorted := by simp [Program.empty]

theorem addUnit {p : Program} (forest : p.Forest) (u : CompilationUnit) :
    (p.addUnit u).Forest where
  parent_lt := by
    intro c q
    rw [parent?_addUnit]
    exact forest.parent_lt
  mem_children := by
    intro q c
    rw [parent?_addUnit, children_addUnit]
    exact forest.mem_children
  children_sorted := by simpa only [children_addUnit] using forest.children_sorted
  mem_units := by
    intro v
    have rootless : p.parent? p.nextId = none := by simp [parent?, get?_nextId]
    have units : (p.addUnit u).units = p.units ++ [p.nextId] := rfl
    rw [parent?_addUnit, units, List.mem_append, List.mem_singleton, forest.mem_units]
    have grown : (p.addUnit u).has v ↔ p.has v ∨ v = p.nextId := by
      obtain ⟨i⟩ := v
      simp only [has_iff, size_addUnit, nextId, NodeId.mk.injEq]
      omega
    rw [grown]
    constructor
    · rintro (⟨present, root⟩ | rfl)
      · exact ⟨.inl present, root⟩
      · exact ⟨.inr rfl, rootless⟩
    · rintro ⟨present | new, root⟩
      · exact .inl ⟨present, root⟩
      · exact .inr new
  units_sorted := by
    have units : (p.addUnit u).units = p.units ++ [p.nextId] := rfl
    rw [units, List.pairwise_append]
    refine ⟨forest.units_sorted, by simp, ?_⟩
    intro a member b last
    have present := (forest.mem_units.mp member).1
    rw [List.mem_singleton.mp last]
    simpa [has, nextId] using present

theorem append {p : Program} (forest : p.Forest) {parent : NodeId} (present : p.has parent)
    (k : NodeKind) (s : Span) : (p.append parent k s).Forest where
  parent_lt := by
    intro c q above
    rw [parent?_append] at above
    split at above
    · next new =>
      cases above
      simpa [new, has, nextId] using present
    · exact forest.parent_lt above
  mem_children := by
    intro q c
    have fresh : p.parent? p.nextId = none := by simp [parent?, get?_nextId]
    have unlisted : p.nextId ∉ p.children q := by
      rw [forest.mem_children, fresh]
      simp
    rw [children_append present, parent?_append]
    by_cases new : c = p.nextId
    · subst new
      by_cases same : q = parent
      · simp [same]
      · simpa [same, eq_comm (a := parent)] using unlisted
    · by_cases same : q = parent <;> simp [same, new, forest.mem_children]
  children_sorted := by
    intro q
    rw [children_append present]
    split
    · rw [List.pairwise_append]
      refine ⟨forest.children_sorted q, by simp, ?_⟩
      intro a member b last
      have older := has_of_parent? (forest.mem_children.mp member)
      rw [List.mem_singleton.mp last]
      simpa [has, nextId] using older
    · exact forest.children_sorted q
  mem_units := by
    intro u
    have units : (p.append parent k s).units = p.units := rfl
    rw [units, forest.mem_units, parent?_append]
    by_cases new : u = p.nextId
    · subst new
      simp [has, nextId]
    · have grown : (p.append parent k s).has u ↔ p.has u := by
        obtain ⟨i⟩ := u
        simp only [nextId, NodeId.mk.injEq] at new
        simp only [has_iff, size_append]
        omega
      simp [grown, new]
  units_sorted := forest.units_sorted

/-- A change of a node that keeps its links keeps the forest. -/
theorem modify {p : Program} (forest : p.Forest) (id : NodeId) (f : Node → Node)
    (parent : ∀ n, (f n).parent = n.parent) (children : ∀ n, (f n).children = n.children) :
    (p.modify id f).Forest := by
  have parents : ∀ x, (p.modify id f).parent? x = p.parent? x := by
    intro x
    by_cases same : x = id
    · subst same
      cases read : p.get? x <;> simp [parent?, get?_modify, read, parent]
    · simp [parent?, get?_modify, same]
  have descent : ∀ x, (p.modify id f).children x = p.children x := by
    intro x
    by_cases same : x = id
    · subst same
      cases read : p.get? x <;> simp [Program.children, get?_modify, read, children]
    · simp [Program.children, get?_modify, same]
  have presence : ∀ x, (p.modify id f).has x = p.has x := by
    intro x
    simp [has]
  have units : (p.modify id f).units = p.units := rfl
  exact {
    parent_lt := by
      intro c q
      rw [parents]
      exact forest.parent_lt
    mem_children := by
      intro q c
      rw [parents, descent]
      exact forest.mem_children
    children_sorted := by simpa only [descent] using forest.children_sorted
    mem_units := by
      intro u
      rw [units, parents, presence]
      exact forest.mem_units
    units_sorted := forest.units_sorted }

end Forest

/-- Programs made from the empty one by insertions, each below a node that is there. -/
inductive Grown : Program → Prop where
  | empty : Grown .empty
  | addUnit {p : Program} (u : CompilationUnit) : Grown p → Grown (p.addUnit u)
  | append {p : Program} {parent : NodeId} (k : NodeKind) (s : Span) :
      Grown p → p.has parent → Grown (p.append parent k s)
  | appendReceiver {p : Program} {call : NodeId} (k : NodeKind) (s : Span) :
      Grown p → p.has call → Grown (p.appendReceiver call k s)
  | appendArgument {p : Program} {call : NodeId} (k : NodeKind) (s : Span) :
      Grown p → p.has call → Grown (p.appendArgument call k s)
  | setSpan {p q : Program} {id : NodeId} {s : Span} : Grown p → p.setSpan id s = .ok q → Grown q

theorem Grown.forest {p : Program} (grown : p.Grown) : p.Forest := by
  induction grown with
  | empty => exact Forest.empty
  | addUnit u _ ih => exact ih.addUnit u
  | append k s _ present ih => exact ih.append present k s
  | appendReceiver k s _ present ih =>
    exact (ih.append present k s).modify _ _ (fun _ => rfl) (fun _ => rfl)
  | appendArgument k s _ present ih =>
    exact (ih.append present k s).modify _ _ (fun _ => rfl) (fun _ => rfl)
  | @setSpan p q id s _ changed ih =>
    simp only [Program.setSpan, bind, Except.bind] at changed
    split at changed
    · cases changed
    · cases changed
      exact ih.modify _ _ (fun _ => rfl) (fun _ => rfl)

end JavaCallGraph.Program
