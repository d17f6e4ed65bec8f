import JavaCallGraph.Proofs.PointTable

/-!
Statements and the callables that own them.

The statements of a callable are the part of its subtree that has it for the innermost declaration.
They come in the order of the subtree, each once. As a node has one innermost declaration, no two
callables share a statement, and a statement is the node of one point or, outside the callables, of
none.
-/

namespace JavaCallGraph

open scoped List

namespace Program

variable {p : Program} {d n : NodeId}

/-- The choice of members that a sublist makes is the whole of it, if no member repeats. -/
theorem eq_filter_of_sublist {l m : List NodeId} (sub : l <+ m) (distinct : m.Nodup)
    {chosen : NodeId → Bool} (members : ∀ x ∈ m, x ∈ l ↔ chosen x) : l = m.filter chosen := by
  have all : l.filter chosen = l :=
    List.filter_eq_self.mpr fun x listed => (members x (sub.subset listed)).mp listed
  have inside : l <+ m.filter chosen := by
    have filtered := sub.filter chosen
    rwa [all] at filtered
  have same : l ~ m.filter chosen := by
    rw [List.perm_ext_iff_of_nodup (sub.nodup distinct) (distinct.filter chosen)]
    intro x
    refine ⟨fun listed => inside.subset listed, fun kept => ?_⟩
    obtain ⟨listed, chosen⟩ := List.mem_filter.mp kept
    exact (members x listed).mpr chosen
  exact inside.eq_of_length same.length_eq

theorem Forest.mem_ownStatements_iff (forest : p.Forest) (callable : p.isCallable d) :
    n ∈ p.ownStatements d ↔ p.isStatement n ∧ p.owner? n = some d := by
  constructor
  · exact mem_ownStatements forest (isDeclaration_of_isCallable callable)
  · rintro ⟨statement, owned⟩
    exact mem_ownStatements_of_owner forest owned statement

/-- The statements of a callable are chosen from its subtree by their owner. -/
theorem Forest.ownStatements_eq (forest : p.Forest) (callable : p.isCallable d) :
    p.ownStatements d =
      (p.descendants d).filter fun n => p.isStatement n && p.owner? n == some d := by
  apply eq_filter_of_sublist (forest.ownStatements_sublist d) (forest.descendants_nodup d)
  intro n _
  rw [forest.mem_ownStatements_iff callable, Bool.and_eq_true, beq_iff_eq]

/-! ### The loop behind the listing -/

/-- One round of the search for statements: the stack of nodes to look at, and the statements listed
so far. -/
def gatherOnce (p : Program) : List NodeId × List NodeId → Option (List NodeId × List NodeId)
  | ([], _) => none
  | (id :: stack, listed) =>
    if p.isDeclaration id then some (stack, listed)
    else some (p.children id ++ stack, if p.isStatement id then listed ++ [id] else listed)

/-- A node on top of the stack is replaced by the statements in its subtree. -/
theorem Forest.gather_ends (forest : p.Forest) {depth : Nat} {id : NodeId}
    {stack listed : List NodeId} {final : List NodeId × List NodeId}
    (deep : p.size - id.index < depth)
    (rest : Loop.Ends p.gatherOnce (stack, listed ++ p.statementsIn depth id) final) :
    Loop.Ends p.gatherOnce (id :: stack, listed) final := by
  induction depth generalizing id stack listed with
  | zero => omega
  | succ depth ih =>
    rw [statementsIn] at rest
    by_cases declares : p.isDeclaration id
    · rw [if_pos declares, List.append_nil] at rest
      exact .step (by rw [gatherOnce, if_pos declares]) rest
    · rw [if_neg declares] at rest
      refine .step (by rw [gatherOnce, if_neg declares]) ?_
      refine .stacked (p.statementsIn depth) ?_ ?_
      · intro c child stack listed
        have later := forest.child_lt child
        exact ih (by omega)
      · by_cases statement : p.isStatement id <;> simpa [statement] using rest

theorem Forest.ownStatements_ends (forest : p.Forest) (d : NodeId) :
    Loop.Ends p.gatherOnce (p.children d, []) ([], p.ownStatements d) := by
  have all : Loop.Ends p.gatherOnce (p.children d ++ [], []) ([], p.ownStatements d) := by
    refine .stacked (p.statementsIn (p.size + 1)) ?_ (.here rfl)
    intro c _ stack listed
    exact forest.gather_ends (by omega)
  rwa [List.append_nil] at all

end Program

namespace PointIndex

variable {p : Program} {n : NodeId}

/-- A point with a statement for its node belongs to the owner of the statement. -/
theorem owner?_node (forest : p.Forest) {q : ProgramPoint} (member : q ∈ pointsOf p)
    (statement : p.isStatement q.node) : p.owner? q.node = some q.declaration := by
  obtain ⟨callable, listed⟩ := mem_pointsOf member
  rcases List.mem_append.mp listed with field | own
  · have initialized := (Program.mem_initializedFields forest field).field
    exact absurd statement (Program.not_isStatement_of_field initialized)
  · exact ((forest.mem_ownStatements_iff callable).mp own).2

/-- The statements among the nodes of all points. -/
def statements (p : Program) : List NodeId := ((pointsOf p).map (·.node)).filter p.isStatement

theorem mem_statements (forest : p.Forest) :
    n ∈ statements p ↔ p.isStatement n ∧ (p.owner? n).any p.isCallable := by
  rw [statements, List.mem_filter, and_comm]
  refine and_congr_right fun statement => ?_
  rw [Option.any_eq_true]
  constructor
  · intro listed
    obtain ⟨q, member, rfl⟩ := List.mem_map.mp listed
    exact ⟨q.declaration, owner?_node forest member statement, (mem_pointsOf member).1⟩
  · rintro ⟨d, owned, callable⟩
    obtain ⟨decl, kind⟩ := Program.isCallable_iff.mp callable
    have present := forest.mem_allUnder_units.mpr (Program.has_of_kind? kind)
    have point : n ∈ p.pointNodes d :=
      List.mem_append_right _ (Program.mem_ownStatements_of_owner forest owned statement)
    obtain ⟨q, member, -, rfl⟩ := exists_mem_pointsOf callable present point
    exact List.mem_map_of_mem member

/-- No two points have the same statement for their node: both would belong to its owner. -/
theorem statements_nodup (forest : p.Forest) : (statements p).Nodup := by
  rw [statements, List.filter_map]
  have distinct : (pointsOf p).Nodup := (keys_nodup forest).of_map
  refine (distinct.filter _).map_on fun q first q' second same => ?_
  obtain ⟨member, statement⟩ := List.mem_filter.mp first
  obtain ⟨member', statement'⟩ := List.mem_filter.mp second
  have owner := owner?_node forest member statement
  rw [same, owner?_node forest member' statement'] at owner
  exact eq_of_key forest member member' (Prod.ext (Option.some.inj owner).symm same)

theorem count_node (forest : p.Forest) (statement : p.isStatement n) :
    ((pointsOf p).map (·.node)).count n = if (p.owner? n).any p.isCallable then 1 else 0 := by
  have counted := (statements_nodup forest).count (a := n)
  rw [statements, List.count_filter statement, ← statements] at counted
  rw [counted]
  simp only [mem_statements forest, statement, true_and]

/-- The statements of a callable are the statements of its subtree with the callable as innermost
declaration around them, in the order of the subtree and each once; the search on a stack of nodes
ends with them. A statement is the node of one point if the innermost declaration around it is a
callable, which then owns the point, and of no point if that declaration is a type or is missing. -/
theorem statements_partitioned (grown : p.Grown) :
    (∀ d, p.isCallable d →
      Loop.Ends p.gatherOnce (p.children d, []) ([], p.ownStatements d) ∧
      p.ownStatements d =
        (p.descendants d).filter (fun n => p.isStatement n && p.owner? n == some d) ∧
      (p.ownStatements d).Nodup ∧
      ∀ n, n ∈ p.ownStatements d ↔ p.isStatement n ∧ p.owner? n = some d) ∧
    ∀ n, p.isStatement n →
      ((build p).points.map (·.node)).count n =
        (if (p.owner? n).any p.isCallable then 1 else 0) ∧
      ∀ q ∈ (build p).points, q.node = n → p.owner? n = some q.declaration := by
  have forest := grown.forest
  rw [points_build forest]
  refine ⟨fun d callable => ⟨forest.ownStatements_ends d, forest.ownStatements_eq callable, ?_,
    fun n => ?_⟩, fun n statement => ⟨count_node forest statement, ?_⟩⟩
  · exact (forest.ownStatements_sublist d).nodup (forest.descendants_nodup d)
  · exact forest.mem_ownStatements_iff callable
  · rintro q member rfl
    exact owner?_node forest member statement

/-- The constructor has the statements around the method, the method has its own, and the statement
in the initializer of the field is the node of no point. -/
theorem statements_partitioned_nested :
    nested.ownStatements ⟨5⟩ = [⟨6⟩, ⟨7⟩] ∧ nested.ownStatements ⟨9⟩ = [⟨10⟩] ∧
      nested.owner? ⟨10⟩ = some ⟨9⟩ ∧ ((build nested).points.map (·.node)).count ⟨10⟩ = 1 ∧
      nested.owner? ⟨3⟩ = some ⟨1⟩ ∧ ((build nested).points.map (·.node)).count ⟨3⟩ = 0 := by
  obtain ⟨own, counts⟩ := statements_partitioned nested_grown
  have outer := (own ⟨5⟩ (by decide)).2.1
  have inner := (own ⟨9⟩ (by decide)).2.1
  have method := (counts ⟨10⟩ (by decide)).1
  have field := (counts ⟨3⟩ (by decide)).1
  refine ⟨outer.trans ?_, inner.trans ?_, by rfl, method.trans ?_, by rfl, field.trans ?_⟩ <;> rfl

end PointIndex

end JavaCallGraph
