import JavaCallGraph.Proofs.Program.Lineage
import JavaCallGraph.Proofs.ResolverFailures
import Mathlib

/-!
Typing comes to an end.

To resolve a call may take the type of its receiver and, for a choice among overloads, the types of
its arguments; to type a method call, it is resolved first. `Calls` lists which rule calls which, and
at which node. The rules that stay at a node follow each other in one order, and every other call goes
on to an operand. Where operands are children, a rule that is called again on the way stands at a
strictly lower node, whatever supertypes and declarations were looked at in between.
-/

namespace JavaCallGraph.Resolver

/-- The rules of the recursion, in the order in which one calls another at the same node. -/
inductive Rule where
  | argumentType
  | staticType
  | resolve
  | bestCandidate
  deriving DecidableEq, Repr

def Rule.rank : Rule → Nat
  | argumentType => 0
  | staticType => 1
  | resolve => 2
  | bestCandidate => 3

/-- A rule at work on a node. -/
structure Task where
  rule : Rule
  node : NodeId
  deriving DecidableEq, Repr

/-- The calls that the rules make of each other. -/
inductive Calls (p : Program) : Task → Task → Prop where
  | derived {a : NodeId} :
      (∀ text, p.kind? a ≠ some (.expression (.name text))) →
      (∀ typeName, p.kind? a ≠ some (.expression (.literal typeName))) →
      Calls p ⟨.argumentType, a⟩ ⟨.staticType, a⟩
  | object {n o : NodeId} {field : String} :
      p.kind? n = some (.expression (.fieldAccess field)) → (p.children n).head? = some o →
      Calls p ⟨.staticType, n⟩ ⟨.staticType, o⟩
  | returned {n : NodeId} {c : MethodCall} :
      p.kind? n = some (.methodCall c) → Calls p ⟨.staticType, n⟩ ⟨.resolve, n⟩
  | receiver {n e : NodeId} : p.receiver? n = some e → Calls p ⟨.resolve, n⟩ ⟨.staticType, e⟩
  | overload {n : NodeId} {kind : CallKind} :
      p.callKind? n = some kind → Calls p ⟨.resolve, n⟩ ⟨.bestCandidate, n⟩
  | argument {n a : NodeId} :
      a ∈ p.arguments n → Calls p ⟨.bestCandidate, n⟩ ⟨.argumentType, a⟩

/-- The nodes whose types a task asks for, by itself or through rules that do not type nodes. -/
inductive Asks (p : Program) : Task → NodeId → Prop where
  | directly {t : Task} {c : NodeId} : Calls p t ⟨.staticType, c⟩ → Asks p t c
  | through {t u : Task} {c : NodeId} :
      Calls p t u → u.rule ≠ .staticType → Asks p u c → Asks p t c

/-- What is computed for a task looks at the types of the nodes that the task asks for, and at no
others. -/
def Confined {α : Type} (p : Program) (t : Task) (computed : (NodeId → Except Error NodeId) → α) :
    Prop :=
  ∀ typeOf typeOf', (∀ c, Asks p t c → typeOf c = typeOf' c) → computed typeOf = computed typeOf'

/-! ### The rules make no other calls -/

variable {h : Hierarchy}

theorem argumentType_confined (h : Hierarchy) (a : NodeId) :
    Confined h.program ⟨.argumentType, a⟩ (argumentType h · a) := by
  intro typeOf typeOf' agree
  dsimp only [argumentType]
  split
  · rfl
  · rfl
  · next noLiteral noName =>
    rw [agree a (.directly (.derived noName noLiteral))]

theorem argumentTypes_congr {typeOf typeOf' : NodeId → Except Error NodeId} {arguments : List NodeId}
    (same : ∀ a ∈ arguments, argumentType h typeOf a = argumentType h typeOf' a) :
    arguments.mapM (argumentType h typeOf) = arguments.mapM (argumentType h typeOf') := by
  induction arguments with
  | nil => rfl
  | cons a rest ih =>
    rw [List.mapM_cons, List.mapM_cons, same a List.mem_cons_self,
      ih fun b later => same b (List.mem_cons_of_mem a later)]

theorem bestCandidate_confined (h : Hierarchy) (call : NodeId) (candidates : List NodeId) :
    Confined h.program ⟨.bestCandidate, call⟩ (bestCandidate h · call candidates) := by
  intro typeOf typeOf' agree
  have types : ∀ a ∈ h.program.arguments call,
      argumentType h typeOf a = argumentType h typeOf' a := by
    intro a member
    apply argumentType_confined h a
    intro c asked
    exact agree c (.through (.argument member) Rule.noConfusion asked)
  dsimp only [bestCandidate]
  split
  · rfl
  · rfl
  · rw [argumentTypes_congr types]

theorem searchRoots_congr {typeOf typeOf' : NodeId → Except Error NodeId} {scope : CallScope}
    (same : ∀ e, scope = .expression e → typeOf e = typeOf' e) (call : NodeId) :
    searchRoots h typeOf call scope = searchRoots h typeOf' call scope := by
  cases scope with
  | expression receiver => rw [searchRoots, searchRoots, same receiver rfl]
  | implicit | this | qualifiedThis _ | super | qualifiedSuper _ => rfl

theorem resolveWith_confined (h : Hierarchy) (call : NodeId) :
    Confined h.program ⟨.resolve, call⟩ (resolveWith h · call) := by
  intro typeOf typeOf' agree
  dsimp only [resolveWith]
  cases read : h.program.node call with
  | error e => rfl
  | ok n =>
    have kindAt : h.program.kind? call = some n.kind := by
      simp [Program.kind?, Program.node_eq_ok.mp read]
    have best : ∀ kind, n.kind.callKind? = some kind → ∀ candidates,
        bestCandidate h typeOf call candidates = bestCandidate h typeOf' call candidates := by
      intro kind isCall candidates
      apply bestCandidate_confined h call candidates
      intro c asked
      have isCallAt : h.program.callKind? call = some kind := by
        rw [Program.callKind?, kindAt, Option.bind_some, isCall]
      exact agree c (.through (.overload isCallAt) Rule.noConfusion asked)
    dsimp only [bind, Except.bind]
    split
    · next c kind =>
      have roots : searchRoots h typeOf call c.scope = searchRoots h typeOf' call c.scope := by
        apply searchRoots_congr
        intro e scope
        exact agree e (.directly (.receiver (Program.receiver?_of_scope (kind ▸ kindAt) scope)))
      simp only [resolveMethodCall, roots, best .methodCall (by rw [kind]; rfl)]
    · next c kind =>
      simp only [resolveCreation, best .objectCreation (by rw [kind]; rfl)]
    · next c kind =>
      simp only [resolveInvocation, best .constructorInvocation (by rw [kind]; rfl)]
    · rfl

theorem staticTypeWith_confined (h : Hierarchy) (node : NodeId) :
    Confined h.program ⟨.staticType, node⟩ (staticTypeWith h · node) := by
  intro typeOf typeOf' agree
  dsimp only [staticTypeWith]
  cases read : h.program.node node with
  | error e => rfl
  | ok n =>
    have kindAt : h.program.kind? node = some n.kind := by
      simp [Program.kind?, Program.node_eq_ok.mp read]
    dsimp only [bind, Except.bind]
    split
    · rfl
    · rfl
    · rfl
    · next field kind =>
      rw [accessType, accessType]
      cases first : (h.program.children node).head? with
      | none => rfl
      | some object =>
        have same : typeOf object = typeOf' object :=
          agree object (.directly (.object (kind ▸ kindAt) first))
        dsimp only [orUnresolved, bind, Except.bind]
        rw [same]
    · rfl
    · rfl
    · rfl
    · next c kind =>
      have resolved : resolveWith h typeOf node = resolveWith h typeOf' node := by
        apply resolveWith_confined h node
        intro c asked
        exact agree c (.through (.returned (kind ▸ kindAt)) Rule.noConfusion asked)
      rw [resolved]
    · rfl

/-! ### Every round goes down -/

section

variable {p : Program} (forest : p.Forest) (receivers : p.ReceiversBelow)
  (arguments : p.ArgumentsBelow)

/-- A task at a strictly lower node, or one that comes later at the same node. -/
def Descends (p : Program) (t u : Task) : Prop :=
  t.node ∈ p.ancestors u.node ∨ t.node = u.node ∧ t.rule.rank < u.rule.rank

include forest

theorem Descends.trans {t u v : Task} (first : Descends p t u) (second : Descends p u v) :
    Descends p t v := by
  rcases first with below | ⟨same, later⟩
  · rcases second with below' | ⟨same', -⟩
    · exact .inl (forest.ancestors_trans below below')
    · exact .inl (same' ▸ below)
  · rcases second with below' | ⟨same', later'⟩
    · exact .inl (same ▸ below')
    · exact .inr ⟨same.trans same', Nat.lt_trans later later'⟩

/-- Lower nodes have higher numbers, and at each node there are four rules. -/
def Task.height (p : Program) (t : Task) : Nat := 4 * (p.size - t.node.index) + (3 - t.rule.rank)

theorem height_lt_of_descends {t u : Task} (descends : Descends p t u) :
    u.height p < t.height p := by
  have four : u.rule.rank ≤ 3 := by cases u.rule <;> decide
  unfold Task.height
  rcases descends with below | ⟨same, later⟩
  · have higher := forest.lt_of_mem_ancestors below
    have small := Program.has_iff.mp (Program.Forest.has_of_ancestor below)
    omega
  · rw [same]
    omega

include receivers arguments

theorem descends_of_calls {t u : Task} (calls : Calls p t u) : Descends p t u := by
  cases calls with
  | derived _ _ => exact .inr ⟨rfl, Nat.lt_succ_self _⟩
  | object _ first => exact .inl (forest.mem_ancestors_of_child (List.mem_of_head? first))
  | returned _ => exact .inr ⟨rfl, Nat.lt_succ_self _⟩
  | receiver found => exact .inl (forest.mem_ancestors_of_child (receivers _ _ found))
  | overload _ => exact .inr ⟨rfl, Nat.lt_succ_self _⟩
  | argument member => exact .inl (forest.mem_ancestors_of_child (arguments.mem_children member))

theorem descends_of_transGen {t u : Task} (chain : Relation.TransGen (Calls p) t u) :
    Descends p t u := by
  induction chain with
  | single calls => exact descends_of_calls forest receivers arguments calls
  | tail _ calls ih => exact ih.trans forest (descends_of_calls forest receivers arguments calls)

/-- A rule that is called again on the way stands at a strictly lower node. -/
theorem below_of_round {rule : Rule} {n m : NodeId}
    (round : Relation.TransGen (Calls p) ⟨rule, n⟩ ⟨rule, m⟩) : n ∈ p.ancestors m := by
  rcases descends_of_transGen forest receivers arguments round with below | ⟨-, later⟩
  · exact below
  · exact absurd later (Nat.lt_irrefl _)

/-- No chain of calls goes on for ever. -/
theorem calls_wellFounded : WellFounded fun later earlier => Calls p earlier later := by
  refine Subrelation.wf ?_ (measure (Task.height p)).wf
  intro later earlier calls
  exact height_lt_of_descends forest (descends_of_calls forest receivers arguments calls)

end

theorem Asks.transGen {p : Program} {t : Task} {c : NodeId} (asked : Asks p t c) :
    Relation.TransGen (Calls p) t ⟨.staticType, c⟩ := by
  induction asked with
  | directly calls => exact .single calls
  | through calls _ _ ih => exact .head calls ih

/-! ### The recursion has one solution -/

section

variable (forest : h.program.Forest) (receivers : h.program.ReceiversBelow)
  (arguments : h.program.ArgumentsBelow)

include forest receivers arguments

theorem below_of_asks {n c : NodeId} (asked : Asks h.program ⟨.staticType, n⟩ c) :
    n ∈ h.program.ancestors c :=
  below_of_round forest receivers arguments asked.transGen

/-- A bound that is as large as needed changes nothing. -/
theorem staticTypeWithin_eq {depth depth' : Nat} {n : NodeId} (present : h.program.has n)
    (deep : h.program.size ≤ n.index + depth) (deep' : h.program.size ≤ n.index + depth') :
    staticTypeWithin h depth n = staticTypeWithin h depth' n := by
  have small := Program.has_iff.mp present
  induction depth generalizing depth' n with
  | zero => omega
  | succ depth ih =>
    obtain ⟨depth', rfl⟩ : ∃ d, depth' = d + 1 := ⟨depth' - 1, by omega⟩
    rw [staticTypeWithin, staticTypeWithin]
    apply staticTypeWith_confined h n
    intro c asked
    have below := below_of_asks forest receivers arguments asked
    have higher := forest.lt_of_mem_ancestors below
    have present' := Program.Forest.has_of_ancestor below
    exact ih present' (by omega) (by omega) (Program.has_iff.mp present')

theorem staticType_eq (n : NodeId) : staticType h n = staticTypeWith h (staticType h) n := by
  apply staticTypeWith_confined h n
  intro c asked
  have present := Program.Forest.has_of_ancestor (below_of_asks forest receivers arguments asked)
  exact staticTypeWithin_eq forest receivers arguments present (by omega) (by omega)

theorem eq_staticType {typeOf : NodeId → Except Error NodeId}
    (solves : ∀ n, typeOf n = staticTypeWith h typeOf n) : typeOf = staticType h := by
  funext n
  induction n using forest.descend_below with
  | step n ih =>
    rw [solves n, staticType_eq forest receivers arguments n]
    apply staticTypeWith_confined h n
    intro c asked
    exact ih c (below_of_asks forest receivers arguments asked)

end

/-! ### Every task is done -/

theorem argumentType_ok {typeOf : NodeId → Except Error NodeId} {a : NodeId}
    (typing : FailsOnlyBy Unresolved (typeOf a)) : ∃ type, argumentType h typeOf a = .ok type := by
  unfold argumentType
  split
  · exact ⟨_, rfl⟩
  · exact ⟨_, rfl⟩
  · cases typed : typeOf a with
    | ok t => exact ⟨_, rfl⟩
    | error e =>
      cases typing e typed
      exact ⟨none, rfl⟩

theorem bestCandidate_ok {typeOf : NodeId → Except Error NodeId} {call : NodeId}
    (typing : ∀ a ∈ h.program.arguments call, FailsOnlyBy Unresolved (typeOf a))
    (candidates : List NodeId) : ∃ best, bestCandidate h typeOf call candidates = .ok best := by
  have ranked : FailsOnlyBy (fun _ => False)
      ((h.program.arguments call).mapM (argumentType h typeOf)) := by
    apply FailsOnlyBy.mapM
    intro a member
    obtain ⟨type, derived⟩ := argumentType_ok (h := h) (typing a member)
    rw [derived]
    exact .ok type
  unfold bestCandidate
  split
  · exact ⟨_, rfl⟩
  · exact ⟨_, rfl⟩
  · cases types : (h.program.arguments call).mapM (argumentType h typeOf) with
    | ok found => exact ⟨_, rfl⟩
    | error e => exact (ranked e types).elim

/-- Where receivers and arguments are children of their calls, typing and resolution come to an end,
also in a cyclic hierarchy. A rule that is called again on the way stands at a strictly lower node, so
no chain of calls goes on for ever, and each rule looks at no other types than it asks for by these
calls. On every node the rules give an answer, or find that something is unresolved. The equation that
gives the type of a node from the types of others has one solution, which is `staticType`. -/
theorem typing_ends (grown : h.program.Grown) (receivers : h.program.ReceiversBelow)
    (arguments : h.program.ArgumentsBelow) :
    (∀ rule n m, Relation.TransGen (Calls h.program) ⟨rule, n⟩ ⟨rule, m⟩ →
        n ∈ h.program.ancestors m) ∧
      (WellFounded fun later earlier => Calls h.program earlier later) ∧
      (∀ n, Confined h.program ⟨.resolve, n⟩ (resolveWith h · n) ∧
        Confined h.program ⟨.staticType, n⟩ (staticTypeWith h · n) ∧
        Confined h.program ⟨.argumentType, n⟩ (argumentType h · n) ∧
        ∀ candidates, Confined h.program ⟨.bestCandidate, n⟩ (bestCandidate h · n candidates)) ∧
      (∀ n, h.program.has n →
        FailsOnlyBy Unresolved (resolve h n) ∧ FailsOnlyBy Unresolved (staticType h n) ∧
        (∃ type, argumentType h (staticType h) n = .ok type) ∧
        ∀ candidates, ∃ best, bestCandidate h (staticType h) n candidates = .ok best) ∧
      ∀ typeOf, (∀ n, typeOf n = staticTypeWith h typeOf n) ↔ typeOf = staticType h := by
  have forest := grown.forest
  have operands : ∀ n c, h.program.Operand n c → c ∈ h.program.children n := fun _ _ =>
    Program.operand_mem_children arguments receivers
  have typed : ∀ n, h.program.has n → FailsOnlyBy Unresolved (staticType h n) := by
    intro n present
    exact staticTypeWithin_unresolved forest operands present (by omega)
  refine ⟨fun rule n m => below_of_round forest receivers arguments,
    calls_wellFounded forest receivers arguments, ?_, ?_, ?_⟩
  · intro n
    exact ⟨resolveWith_confined h n, staticTypeWith_confined h n, argumentType_confined h n,
      bestCandidate_confined h n⟩
  · intro n present
    have operandsTyped : ∀ c, h.program.Operand n c → FailsOnlyBy Unresolved (staticType h c) :=
      fun c => staticType_unresolved forest operands
    refine ⟨resolveWith_fails .intro operandsTyped (node_ne_error present), typed n present,
      argumentType_ok (typed n present), bestCandidate_ok ?_⟩
    intro a member
    exact operandsTyped a (.argument member)
  · intro typeOf
    constructor
    · exact eq_staticType forest receivers arguments
    · rintro rfl
      exact staticType_eq forest receivers arguments

/-- Two classes that extend each other, and a call that needs the types of its receiver and of its
argument; the receiver is such a call again. -/
def mutualTypes : Program :=
  Program.empty
    |>.addUnit { path := "A.java" }
    |>.append ⟨0⟩ (.type { kind := .classType, name := "A", superclass := some "B" }) .unknown
    |>.append ⟨1⟩ (.callable
      { kind := .method, name := "f", parameters := [⟨"A", "x"⟩], returnType := some "A" }) .unknown
    |>.append ⟨1⟩ (.callable
      { kind := .method, name := "f", parameters := [⟨"B", "x"⟩], returnType := some "A" }) .unknown
    |>.append ⟨1⟩ (.callable (.method "m")) .unknown
    |>.append ⟨4⟩ (.statement (.other "expression_statement")) .unknown
    |>.append ⟨5⟩ (.methodCall { name := "f" }) .unknown
    |>.appendReceiver ⟨6⟩ (.methodCall { name := "f", scope := .this }) .unknown
    |>.appendArgument ⟨7⟩ (.expression .this) .unknown
    |>.appendArgument ⟨6⟩ (.objectCreation { typeName := "B" }) .unknown
    |>.append ⟨0⟩ (.type { kind := .classType, name := "B", superclass := some "A" }) .unknown

theorem mutualTypes_assembled : mutualTypes.Assembled := by
  unfold mutualTypes
  repeat' constructor

theorem mutualTypes_cycle :
    (Hierarchy.build mutualTypes).parentOf? ⟨1⟩ = some ⟨10⟩ ∧
      (Hierarchy.build mutualTypes).parentOf? ⟨10⟩ = some ⟨1⟩ := by
  decide

theorem mutualTypes_resolved :
    resolve (Hierarchy.build mutualTypes) ⟨6⟩ = .ok (.declaration ⟨3⟩) := by
  cbv

/-- The receiver is resolved on the way and lies below the call; both overloads are told apart. -/
theorem typing_ends_mutualTypes :
    mutualTypes.Grown ∧ mutualTypes.ReceiversBelow ∧ mutualTypes.ArgumentsBelow ∧
      (Hierarchy.build mutualTypes).parentOf? ⟨1⟩ = some ⟨10⟩ ∧
      (Hierarchy.build mutualTypes).parentOf? ⟨10⟩ = some ⟨1⟩ ∧
      ⟨6⟩ ∈ mutualTypes.ancestors ⟨7⟩ ∧
      FailsOnlyBy Unresolved (resolve (Hierarchy.build mutualTypes) ⟨6⟩) ∧
      resolve (Hierarchy.build mutualTypes) ⟨6⟩ = .ok (.declaration ⟨3⟩) := by
  have grown : mutualTypes.Grown := mutualTypes_assembled.grown
  have receivers : mutualTypes.ReceiversBelow := by decide
  have arguments : mutualTypes.ArgumentsBelow := mutualTypes_assembled.argumentsBelow
  obtain ⟨rounds, -, -, answers, -⟩ :=
    typing_ends (h := Hierarchy.build mutualTypes) grown receivers arguments
  have round : Relation.TransGen (Calls mutualTypes) ⟨.resolve, ⟨6⟩⟩ ⟨.resolve, ⟨7⟩⟩ :=
    .tail (.single (.receiver rfl)) (.returned rfl)
  have present : mutualTypes.has ⟨6⟩ := by decide
  exact ⟨grown, receivers, arguments, mutualTypes_cycle.1, mutualTypes_cycle.2,
    rounds .resolve ⟨6⟩ ⟨7⟩ round, (answers ⟨6⟩ present).1, mutualTypes_resolved⟩

end JavaCallGraph.Resolver
