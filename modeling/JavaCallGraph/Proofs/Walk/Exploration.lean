import JavaCallGraph.Proofs.Program.Lineage
import JavaCallGraph.Walk.Scoped

/-!
The scoped walk as a recursion over the forest.

`explore` visits a node and then its children, once in each of the scopes that the visitor's answer
opens. It has no steps to schedule and nothing to undo. `run_enter` says that working off the step
for a node comes to the same, whatever work is left behind it: the scope after the steps of a
subtree is the scope before them.
-/

namespace JavaCallGraph.Walk

variable {σ α β : Type}

/-! ### Sequences that end at a failure -/

/-- Go on from where a walk ended, unless it failed. -/
def andThen (ended : σ × Except Error Unit) (next : σ → σ × Except Error Unit) :
    σ × Except Error Unit :=
  match ended with
  | (state, .ok ()) => next state
  | (state, .error e) => (state, .error e)

/-- Act on each element of a list in turn, up to the first failure. -/
def inTurn (act : α → σ → σ × Except Error Unit) : List α → σ → σ × Except Error Unit
  | [], state => (state, .ok ())
  | a :: rest, state => andThen (act a state) (inTurn act rest)

@[simp] theorem andThen_ok (state : σ) (next : σ → σ × Except Error Unit) :
    andThen (state, .ok ()) next = next state := rfl

@[simp] theorem andThen_error (state : σ) (e : Error) (next : σ → σ × Except Error Unit) :
    andThen (state, .error e) next = (state, .error e) := rfl

theorem andThen_assoc (ended : σ × Except Error Unit) (next last : σ → σ × Except Error Unit) :
    andThen (andThen ended next) last = andThen ended fun state => andThen (next state) last := by
  obtain ⟨state, result⟩ := ended
  cases result <;> rfl

@[simp] theorem andThen_pure (ended : σ × Except Error Unit) :
    andThen ended (fun state => (state, .ok ())) = ended := by
  obtain ⟨state, result⟩ := ended
  cases result <;> rfl

theorem inTurn_append (act : α → σ → σ × Except Error Unit) (first second : List α) (state : σ) :
    inTurn act (first ++ second) state = andThen (inTurn act first state) (inTurn act second) := by
  induction first generalizing state with
  | nil => rfl
  | cons a rest ih =>
    simp only [List.cons_append, inTurn, andThen_assoc]
    congr 1
    funext state
    exact ih state

theorem inTurn_flatMap (act : β → σ → σ × Except Error Unit) (parts : α → List β) (whole : List α)
    (state : σ) :
    inTurn act (whole.flatMap parts) state =
      inTurn (fun a => inTurn act (parts a)) whole state := by
  induction whole generalizing state with
  | nil => rfl
  | cons a rest ih =>
    rw [List.flatMap_cons, inTurn_append, inTurn]
    congr 1
    funext state
    exact ih state

theorem inTurn_congr {act act' : α → σ → σ × Except Error Unit} {whole : List α}
    (same : ∀ a ∈ whole, act a = act' a) : inTurn act whole = inTurn act' whole := by
  induction whole with
  | nil => rfl
  | cons a rest ih =>
    funext state
    rw [inTurn, inTurn, same a (by simp), ih fun b member => same b (by simp [member])]

/-! ### The recursion -/

namespace Scope

/-- The scope of a pass inside a callable. -/
def inside (scope : Scope) (callable : NodeId) (replay : Bool) : Scope :=
  { scope with
    callables := callable :: scope.callables, replays := scope.replays + replay.toNat }

/-- The scope below a node. -/
def below (p : Program) (scope : Scope) (node : NodeId) : Scope :=
  match p.kind? node with
  | some (.type _) => { scope with types := node :: scope.types }
  | some (.callable _) => { scope with callables := node :: scope.callables }
  | _ => scope

/-- The scopes in which the children of a node are walked, one for each pass over them. -/
def openings (p : Program) (scope : Scope) (node : NodeId) : Descend → List Scope
  | .skip => []
  | .children => [scope.below p node]
  | .perCallable [] => []
  | .perCallable (first :: later) =>
    scope.inside first false :: later.map fun callable => scope.inside callable true

/-- Whether a node is passed over: a declaration, in a repeated pass. -/
def passesOver (p : Program) (scope : Scope) (node : NodeId) : Bool :=
  decide (0 < scope.replays) && p.isDeclaration node

end Scope

/-- Visit a node and what lies below it, to a depth of `depth` nodes. -/
def explore (p : Program) (visit : Visitor σ) :
    (depth : Nat) → Scope → NodeId → σ → σ × Except Error Unit
  | 0, _, _, state => (state, .ok ())
  | depth + 1, scope, node, state =>
    if scope.passesOver p node then (state, .ok ())
    else
      match visit state node scope with
      | (state, .error e) => (state, .error e)
      | (state, .ok descend) =>
        inTurn (fun inner => inTurn (explore p visit depth inner) (p.children node))
          (scope.openings p node descend) state

/-! ### Agreement -/

variable {p : Program} {visit : Visitor σ}

theorem run_nil (state : σ) (scope : Scope) : run p visit state scope [] = (state, .ok ()) := by
  rw [run]

theorem run_cons (state : σ) (scope : Scope) (step : Step) (rest : List Step) :
    run p visit state scope (step :: rest) =
      match advance p visit state scope step with
      | (state, .error e) => (state, .error e)
      | (state, .ok (steps, scope)) => run p visit state scope (steps ++ rest) := by
  rw [run]
  split <;> simp_all

theorem enterChildren_eq (forest : p.Forest) (node : NodeId) :
    enterChildren p node = (p.children node).map .enter := by
  rw [enterChildren, List.filter_eq_self.mpr]
  intro c member
  simpa using (forest.child_lt member).1

/-- What `run_enter` says of one node, for every scope, state and rest of the work. -/
def Agrees (p : Program) (visit : Visitor σ) (depth : Nat) (node : NodeId) : Prop :=
  ∀ (state : σ) (scope : Scope) (rest : List Step),
    run p visit state scope (.enter node :: rest) =
      andThen (explore p visit depth scope node state) fun state => run p visit state scope rest

theorem run_enterAll {depth : Nat} {nodes : List NodeId}
    (agree : ∀ c ∈ nodes, Agrees p visit depth c) (state : σ) (scope : Scope) (rest : List Step) :
    run p visit state scope (nodes.map .enter ++ rest) =
      andThen (inTurn (explore p visit depth scope) nodes state) fun state =>
        run p visit state scope rest := by
  induction nodes generalizing state with
  | nil => rfl
  | cons c later ih =>
    rw [List.map_cons, List.cons_append, agree c (by simp), inTurn, andThen_assoc]
    congr 1
    funext state
    exact ih (fun d member => agree d (by simp [member])) state

/-- The children are walked in a scope that one more step closes again. -/
theorem run_children_then (forest : p.Forest) {depth : Nat} {node : NodeId}
    (agree : ∀ c ∈ p.children node, Agrees p visit depth c) {inner scope : Scope} {close : Step}
    {rest : List Step}
    (closes : ∀ state, run p visit state inner (close :: rest) = run p visit state scope rest)
    (state : σ) :
    run p visit state inner (enterChildren p node ++ [close] ++ rest) =
      andThen (inTurn (explore p visit depth inner) (p.children node) state) fun state =>
        run p visit state scope rest := by
  rw [enterChildren_eq forest, List.append_assoc, run_enterAll agree]
  congr 1
  funext state
  exact closes state

theorem run_pass (forest : p.Forest) {depth : Nat} {node : NodeId}
    (agree : ∀ c ∈ p.children node, Agrees p visit depth c) (callable : NodeId) (replay : Bool)
    (state : σ) (scope : Scope) (rest : List Step) :
    run p visit state scope (pass p node callable replay ++ rest) =
      andThen (inTurn (explore p visit depth (scope.inside callable replay)) (p.children node) state)
        fun state => run p visit state scope rest := by
  have restored : ∀ state, run p visit state (scope.inside callable replay)
      (.popCallable replay :: rest) = run p visit state scope rest := by
    intro state
    simp [run_cons, advance, Scope.inside]
  have pushed : run p visit state scope (pass p node callable replay ++ rest) =
      run p visit state (scope.inside callable replay)
        (enterChildren p node ++ [.popCallable replay] ++ rest) := by
    simp [pass, run_cons, advance, Scope.inside]
  rw [pushed]
  exact run_children_then forest agree restored state

theorem run_repeats (forest : p.Forest) {depth : Nat} {node : NodeId}
    (agree : ∀ c ∈ p.children node, Agrees p visit depth c) (later : List NodeId)
    (state : σ) (scope : Scope) (rest : List Step) :
    run p visit state scope (later.flatMap (pass p node · true) ++ rest) =
      andThen (inTurn (fun inner => inTurn (explore p visit depth inner) (p.children node))
        (later.map fun callable => scope.inside callable true) state)
        fun state => run p visit state scope rest := by
  induction later generalizing state with
  | nil => rfl
  | cons callable later ih =>
    rw [List.flatMap_cons, List.append_assoc, run_pass forest agree, List.map_cons, inTurn,
      andThen_assoc]
    congr 1
    funext state
    exact ih state

/-- The steps that follow a visit walk the children in the scopes that the answer opens. -/
theorem run_follow (forest : p.Forest) {depth : Nat} {node : NodeId} (present : p.has node)
    (agree : ∀ c ∈ p.children node, Agrees p visit depth c) (descend : Descend)
    (state : σ) (scope : Scope) (rest : List Step) :
    ∃ steps inner, follow p node scope descend = .ok (steps, inner) ∧
      run p visit state inner (steps ++ rest) =
        andThen (inTurn (fun inner => inTurn (explore p visit depth inner) (p.children node))
          (scope.openings p node descend) state) fun state => run p visit state scope rest := by
  cases descend with
  | skip => exact ⟨[], scope, rfl, rfl⟩
  | perCallable callables =>
    refine ⟨passes p node callables, scope, by simp [follow, present], ?_⟩
    cases callables with
    | nil => rfl
    | cons first later =>
      rw [passes, List.append_assoc, run_pass forest agree, Scope.openings, inTurn, andThen_assoc]
      congr 1
      funext state
      exact run_repeats forest agree later state scope rest
  | children =>
    cases read : p.get? node with
    | none => exact absurd present (Program.get?_eq_none_iff.mp read)
    | some n =>
      have kind : p.kind? node = some n.kind := by simp [Program.kind?, read]
      simp only [follow, Program.node, read, bind, Except.bind, Scope.openings, inTurn,
        andThen_pure]
      split
      · next decl isType =>
        -- the type is on the stack while the children are walked, and off it afterwards
        have inner : scope.below p node = { scope with types := node :: scope.types } := by
          simp [Scope.below, kind, isType]
        rw [inner]
        refine ⟨_, _, rfl, run_children_then forest agree (fun state => ?_) state⟩
        simp [run_cons, advance]
      · next decl isCallable =>
        have inner : scope.below p node = { scope with callables := node :: scope.callables } := by
          simp [Scope.below, kind, isCallable]
        rw [inner]
        refine ⟨_, _, rfl, run_children_then forest agree (fun state => ?_) state⟩
        simp [run_cons, advance]
      · next noType noCallable =>
        have inner : scope.below p node = scope := by
          rw [Scope.below, kind]
          split <;> simp_all
        exact ⟨_, _, rfl, by rw [enterChildren_eq forest, run_enterAll agree, inner]⟩

/-- Entering a node explores its subtree and then goes on with the rest of the work in the same
scope. -/
theorem run_enter (forest : p.Forest) (visit : Visitor σ) {depth : Nat} {node : NodeId}
    (present : p.has node) (deep : p.size - node.index < depth) : Agrees p visit depth node := by
  induction depth generalizing node with
  | zero => omega
  | succ depth ih =>
    intro state scope rest
    have agree : ∀ c ∈ p.children node, Agrees p visit depth c := by
      intro c member
      have younger := forest.child_lt member
      exact ih (Program.has_iff.mpr younger.2) (by omega)
    rw [run_cons, explore, advance]
    cases passed : scope.passesOver p node with
    | true =>
      obtain ⟨repeated, declaration⟩ := Bool.and_eq_true_iff.mp passed
      simp [repeated, declaration, present]
    | false =>
      have visited : (decide (0 < scope.replays) && p.isDeclaration node) = false := passed
      simp only [present, Bool.not_true, Bool.and_false, visited, Bool.false_eq_true, if_false]
      cases answer : visit state node scope with
      | mk state' result =>
        cases result with
        | error e => rfl
        | ok descend =>
          obtain ⟨steps, inner, next, walked⟩ :=
            run_follow forest present agree descend state' scope rest
          simp only [next]
          exact walked

/-- A walk explores its roots in turn. -/
theorem walk_eq (forest : p.Forest) (visit : Visitor σ) {roots : List NodeId}
    (present : ∀ r ∈ roots, p.has r) (state : σ) :
    walk p visit state roots = inTurn (explore p visit (p.size + 1) {}) roots state := by
  have agree : ∀ r ∈ roots, Agrees p visit (p.size + 1) r := fun r member =>
    run_enter forest visit (present r member) (by omega)
  have walked := run_enterAll agree state {} []
  simpa [walk, run_nil] using walked

end JavaCallGraph.Walk
