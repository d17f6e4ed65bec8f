import JavaCallGraph.Point
import JavaCallGraph.Proofs.Program.Lineage

/-!
Which nodes are program points of a callable.

A statement belongs to the innermost declaration around it. A non-static field belongs to the
constructors of the type it stands in. An index of points holds nothing else, so the point that it
finds for a call owns a node around the call in one of these two ways. It holds every statement of a
callable, so a call in a statement has a point.
-/

namespace JavaCallGraph

namespace Program

variable {p : Program}

/-- The innermost type or callable strictly above a node. -/
def owner? (p : Program) (id : NodeId) : Option NodeId := (p.ancestors id).find? p.isDeclaration

theorem Forest.owner?_child (forest : p.Forest) {c q : NodeId} (above : p.parent? c = some q) :
    p.owner? c = if p.isDeclaration q then some q else p.owner? q :=
  forest.find?_ancestors_child above p.isDeclaration

/-- A constructor and a non-static field of the type that it constructs. -/
structure ConstructsField (p : Program) (d f : NodeId) : Prop where
  constructor : (p.callable? d).any (·.kind == .constructor)
  field : (p.fieldDecl? f).any (!·.isStatic)
  member : ∃ type, p.enclosingType? d = some type ∧ p.parent? f = some type

/-- A node that may be a point of a callable: one of its own statements, or a field that it
initializes. -/
def Owns (p : Program) (d n : NodeId) : Prop :=
  (p.isStatement n ∧ p.owner? n = some d) ∨ p.ConstructsField d n

theorem mem_statementsIn (forest : p.Forest) {depth : Nat} {start n : NodeId}
    (member : n ∈ p.statementsIn depth start) : p.isStatement n ∧ p.owner? n = p.owner? start := by
  induction depth generalizing start with
  | zero => cases member
  | succ depth ih =>
    rw [statementsIn] at member
    split at member
    · cases member
    · next plain =>
      -- `start` opens no declaration, so its children have the same owner
      have below : n ∈ (p.children start).flatMap (p.statementsIn depth) →
          p.isStatement n ∧ p.owner? n = p.owner? start := by
        intro listed
        obtain ⟨c, child, listed⟩ := List.mem_flatMap.mp listed
        obtain ⟨statement, owner⟩ := ih listed
        rw [owner, forest.owner?_child (forest.mem_children.mp child), if_neg plain]
        exact ⟨statement, rfl⟩
      split at member
      · next statement =>
        rcases List.mem_cons.mp member with rfl | later
        · exact ⟨statement, rfl⟩
        · exact below later
      · exact below member

theorem mem_ownStatements (forest : p.Forest) {d n : NodeId} (declares : p.isDeclaration d)
    (member : n ∈ p.ownStatements d) : p.isStatement n ∧ p.owner? n = some d := by
  obtain ⟨c, child, listed⟩ := List.mem_flatMap.mp member
  obtain ⟨statement, owner⟩ := mem_statementsIn forest listed
  rw [owner, forest.owner?_child (forest.mem_children.mp child), if_pos declares]
  exact ⟨statement, rfl⟩

/-- The owner of a node is the first declaration on the way up from it. -/
theorem Forest.mem_lineage_owner (forest : p.Forest) {n d a : NodeId} (owned : p.owner? n = some d)
    (above : a ∈ p.ancestors n) (declares : p.isDeclaration a) : a ∈ p.lineage d := by
  induction n using forest.climb with
  | step n ih =>
    cases next : p.parent? n with
    | none =>
      rw [ancestors_root next] at above
      cases above
    | some q =>
      rw [forest.ancestors_child next] at above
      rw [forest.owner?_child next] at owned
      split at owned
      · cases owned
        exact above
      · next plain =>
        rcases List.mem_cons.mp above with rfl | higher
        · exact absurd declares plain
        · exact ih q next owned higher

theorem not_isDeclaration_of_isStatement {n : NodeId} (statement : p.isStatement n) :
    ¬ p.isDeclaration n := by
  unfold isStatement at statement
  split at statement
  · next kind => simp [isDeclaration, kind, NodeKind.isDeclaration]
  · cases statement

/-- The search for statements reaches all that have the same owner. -/
theorem mem_statementsIn_of_owner (forest : p.Forest) {depth : Nat} {start n d : NodeId}
    (present : p.has start) (deep : p.size ≤ depth + start.index) (line : start ∈ p.lineage n)
    (inside : d ∈ p.ancestors start) (owned : p.owner? n = some d) (statement : p.isStatement n) :
    n ∈ p.statementsIn depth start := by
  induction depth generalizing start with
  | zero =>
    have small := has_iff.mp present
    omega
  | succ depth ih =>
    have plain : ¬ p.isDeclaration start := by
      rcases List.mem_cons.mp line with rfl | higher
      · exact not_isDeclaration_of_isStatement statement
      · intro declares
        have below := forest.lt_of_mem_ancestors inside
        rcases List.mem_cons.mp (forest.mem_lineage_owner owned higher declares) with rfl | above
        · exact Nat.lt_irrefl _ below
        · exact Nat.lt_asymm below (forest.lt_of_mem_ancestors above)
    rw [statementsIn, if_neg plain]
    rcases List.mem_cons.mp line with rfl | higher
    · rw [if_pos statement]
      exact List.mem_cons_self
    · obtain ⟨c, child, way⟩ := forest.way_down higher
      have above := forest.mem_children.mp child
      have later := forest.parent_lt above
      have listed : n ∈ p.statementsIn depth c := by
        apply ih (has_of_parent? above) (by omega) (List.mem_cons.mpr (way.imp_left Eq.symm))
        rw [forest.ancestors_child above]
        exact List.mem_cons_of_mem _ inside
      have below : n ∈ (p.children start).flatMap (p.statementsIn depth) :=
        List.mem_flatMap.mpr ⟨c, child, listed⟩
      dsimp only
      split
      · exact List.mem_cons_of_mem _ below
      · exact below

theorem mem_ownStatements_of_owner (forest : p.Forest) {d n : NodeId} (owned : p.owner? n = some d)
    (statement : p.isStatement n) : n ∈ p.ownStatements d := by
  obtain ⟨c, child, way⟩ := forest.way_down (List.mem_of_find?_eq_some owned)
  have above := forest.mem_children.mp child
  refine List.mem_flatMap.mpr ⟨c, child, ?_⟩
  apply mem_statementsIn_of_owner forest (has_of_parent? above) (by omega) _ _ owned statement
  · exact List.mem_cons.mpr (way.imp_left Eq.symm)
  · rw [forest.ancestors_child above]
    exact List.mem_cons_self

theorem mem_initializedFields (forest : p.Forest) {d f : NodeId}
    (member : f ∈ p.initializedFields d) : p.ConstructsField d f := by
  unfold initializedFields at member
  split at member
  · next constructor =>
    split at member
    · next type enclosing =>
      obtain ⟨listed, nonStatic⟩ := List.mem_filter.mp member
      obtain ⟨child, -⟩ := List.mem_filter.mp listed
      exact ⟨constructor, nonStatic, type, enclosing, forest.mem_children.mp child⟩
    · cases member
  · cases member

theorem owns_of_mem_pointNodes (forest : p.Forest) {d n : NodeId} (callable : p.isCallable d)
    (member : n ∈ p.pointNodes d) : p.Owns d n := by
  rcases List.mem_append.mp member with field | statement
  · exact .inr (mem_initializedFields forest field)
  · exact .inl (mem_ownStatements forest (isDeclaration_of_isCallable callable) statement)

end Program

namespace PointIndex

variable {p : Program}

theorem mem_pointsOf {q : ProgramPoint} (member : q ∈ pointsOf p) :
    p.isCallable q.declaration ∧ q.node ∈ p.pointNodes q.declaration := by
  obtain ⟨⟨⟨d, n⟩, id⟩, numbered, rfl⟩ := List.mem_map.mp member
  have owned := List.fst_mem_of_mem_zipIdx numbered
  obtain ⟨d', callable, listed⟩ := List.mem_flatMap.mp owned
  obtain ⟨n', point, same⟩ := List.mem_map.mp listed
  cases same
  exact ⟨(List.mem_filter.mp callable).2, point⟩

theorem find?_build {d n : NodeId} {q : ProgramPoint}
    (found : (build p).find? d n = some q) :
    q ∈ pointsOf p ∧ q.declaration = d ∧ q.node = n := by
  have listed := List.mem_of_getLast? found
  simp only [build, Index.get_ofPairs, List.mem_map, List.mem_filter] at listed
  obtain ⟨pair, ⟨⟨q', member, rfl⟩, key⟩, rfl⟩ := listed
  simp only [Prod.mk.injEq, decide_eq_true_eq] at key
  exact ⟨member, key⟩

/-- The point found for a call belongs to the declaration asked for, and its node holds the call. -/
theorem containing_build (forest : p.Forest) {d call : NodeId} {q : ProgramPoint}
    (found : (build p).containing d call = .ok q) :
    q.declaration = d ∧ q.node ∈ p.lineage call ∧ p.Owns d q.node := by
  unfold containing at found
  split at found
  · cases found
  · split at found
    · next q' first =>
      cases found
      obtain ⟨n, above, found⟩ := List.exists_of_findSome?_eq_some first
      obtain ⟨member, rfl, rfl⟩ := find?_build found
      obtain ⟨callable, listed⟩ := mem_pointsOf member
      exact ⟨rfl, above, Program.owns_of_mem_pointNodes forest callable listed⟩
    · cases found

theorem exists_mem_pointsOf {d n : NodeId} (callable : p.isCallable d)
    (listed : d ∈ p.allUnder p.units) (point : n ∈ p.pointNodes d) :
    ∃ q ∈ pointsOf p, q.declaration = d ∧ q.node = n := by
  have owned : (d, n) ∈ ((p.allUnder p.units).filter p.isCallable).flatMap fun d =>
      (p.pointNodes d).map (d, ·) :=
    List.mem_flatMap.mpr ⟨d, List.mem_filter.mpr ⟨listed, callable⟩, List.mem_map_of_mem point⟩
  obtain ⟨id, numbered⟩ := List.mem_iff_getElem?.mp owned
  exact ⟨⟨id, d, n⟩, List.mem_map.mpr ⟨((d, n), id), List.mk_mem_zipIdx_iff_getElem?.mpr numbered, rfl⟩,
    rfl, rfl⟩

theorem exists_find?_build {q : ProgramPoint} (member : q ∈ pointsOf p) :
    ∃ q', (build p).find? q.declaration q.node = some q' := by
  have bucket : q ∈ (build p).byNode.get (q.declaration, q.node) := by
    simp only [build, Index.get_ofPairs, List.mem_map, List.mem_filter]
    exact ⟨_, ⟨⟨q, member, rfl⟩, by simp⟩, rfl⟩
  have last := List.getLast?_isSome.mpr (List.ne_nil_of_mem bucket)
  exact Option.isSome_iff_exists.mp last

/-- Below a statement of a callable, a point of the callable is found. -/
theorem exists_containing (forest : p.Forest) {d call n : NodeId} (callable : p.isCallable d)
    (present : p.has call) (above : n ∈ p.ancestors call) (statement : p.isStatement n)
    (owned : p.owner? n = some d) : ∃ point, (build p).containing d call = .ok point := by
  have declared : p.has d :=
    forest.has_of_mem_ancestors (forest.has_of_mem_ancestors present above)
      (List.mem_of_find?_eq_some owned)
  obtain ⟨u, unit, below⟩ := forest.exists_unit_above declared
  have listed : d ∈ p.allUnder p.units := List.mem_flatMap.mpr ⟨u, unit, below⟩
  have point : n ∈ p.pointNodes d :=
    List.mem_append_right _ (Program.mem_ownStatements_of_owner forest owned statement)
  obtain ⟨q, member, rfl, rfl⟩ := exists_mem_pointsOf callable listed point
  obtain ⟨q', found⟩ := exists_find?_build member
  have first : ((p.lineage call).findSome? ((build p).find? q.declaration)).isSome :=
    List.findSome?_isSome_iff.mpr ⟨q.node, List.mem_cons_of_mem _ above, by rw [found]; rfl⟩
  obtain ⟨point, first⟩ := Option.isSome_iff_exists.mp first
  refine ⟨point, ?_⟩
  have program : (build p).program = p := rfl
  rw [containing, program, present, first]
  rfl

end PointIndex

end JavaCallGraph
