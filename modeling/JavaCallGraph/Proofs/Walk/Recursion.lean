import JavaCallGraph.Proofs.Walk.Exploration
import Mathlib.Logic.Relation

/-!
The scoped walk against the plain recursion.

`recurse` has neither a list of steps nor a bound on its depth: parents are older than their
children, so it ends by itself. The walk makes the same visits in the same scopes as the recursion
and comes to the same end, for any visitor and any roots.

The walk itself is followed step by step through its stages. What its pending steps would still take
away from the scope is exactly what the scope holds: `unwind` of the work is the empty scope at every
stage. So no step takes away what is not there, and nothing is left at the end.
-/

namespace JavaCallGraph.Walk

variable {σ τ α : Type} {p : Program}

/-! ### The recursion -/

/-- Visit a node and then its children, once in each scope that the answer opens. A failure ends the
walk at once. -/
def recurse (forest : p.Forest) (visit : Visitor σ) (scope : Scope) (node : NodeId) (state : σ) :
    σ × Except Error Unit :=
  if scope.passesOver p node then (state, .ok ())
  else
    match visit state node scope with
    | (state, .error e) => (state, .error e)
    | (state, .ok descend) =>
      -- only a root may be no node at all; there is nothing below it to walk
      if (scope.openings p node descend).isEmpty || p.has node then
        inTurn
          (fun inner => inTurn (fun c => recurse forest visit inner c.1) (p.children node).attach)
          (scope.openings p node descend) state
      else (state, .error (.missingNode node))
termination_by p.size - node.index
decreasing_by
  have younger := forest.child_lt c.2
  omega

theorem inTurn_attach (act : α → σ → σ × Except Error Unit) (whole : List α) :
    inTurn (fun a => act a.1) whole.attach = inTurn act whole := by
  have mapped : ∀ parts : List {a // a ∈ whole},
      inTurn (fun a => act a.1) parts = inTurn act (parts.map Subtype.val) := by
    intro parts
    induction parts with
    | nil => rfl
    | cons a rest ih =>
      funext state
      rw [List.map_cons, inTurn, inTurn, ih]
  rw [mapped, List.attach_map_subtype_val]

theorem recurse_eq (forest : p.Forest) (visit : Visitor σ) (scope : Scope) (node : NodeId)
    (state : σ) :
    recurse forest visit scope node state =
      if scope.passesOver p node then (state, .ok ())
      else
        match visit state node scope with
        | (state, .error e) => (state, .error e)
        | (state, .ok descend) =>
          if (scope.openings p node descend).isEmpty || p.has node then
            inTurn (fun inner => inTurn (recurse forest visit inner) (p.children node))
              (scope.openings p node descend) state
          else (state, .error (.missingNode node)) := by
  rw [recurse]
  simp only [inTurn_attach]

/-- On a node of the program the bounded exploration is the recursion. -/
theorem explore_eq_recurse (forest : p.Forest) (visit : Visitor σ) {depth : Nat} {node : NodeId}
    (present : p.has node) (deep : p.size - node.index < depth) (scope : Scope) (state : σ) :
    explore p visit depth scope node state = recurse forest visit scope node state := by
  induction depth generalizing node scope state with
  | zero => omega
  | succ depth ih =>
    have below : ∀ inner, ∀ c ∈ p.children node,
        explore p visit depth inner c = recurse forest visit inner c := by
      intro inner c child
      have younger := forest.child_lt child
      funext state
      apply ih
      · exact Program.has_iff.mpr younger.2
      · omega
    rw [explore, recurse_eq]
    cases visit state node scope with
    | mk state' result =>
      cases result with
      | error e => rfl
      | ok descend => simp only [present, Bool.or_true, if_true, inTurn_congr (below _)]

/-- Entering a node recurses below it and then goes on with the rest of the work. Repeated passes
start below a node, so what they enter is one. -/
theorem run_enter_eq (forest : p.Forest) (visit : Visitor σ) {node : NodeId} {scope : Scope}
    (known : p.has node ∨ scope.replays = 0) (state : σ) (rest : List Step) :
    run p visit state scope (.enter node :: rest) =
      andThen (recurse forest visit scope node state) fun state => run p visit state scope rest := by
  by_cases present : p.has node
  · have deep : p.size - node.index < p.size + 1 := by omega
    rw [run_enter forest visit present deep state scope rest,
      explore_eq_recurse forest visit present deep]
  · have first : scope.replays = 0 := known.resolve_left present
    have unread : p.get? node = none := Program.get?_eq_none_iff.mpr present
    have visited : scope.passesOver p node = false := by simp [Scope.passesOver, first]
    rw [run_cons, advance, recurse_eq]
    simp only [first, Nat.lt_irrefl, decide_false, Bool.false_and, Bool.false_eq_true, if_false,
      visited, present, Bool.or_false]
    cases answer : visit state node scope with
    | mk state' result =>
      cases result with
      | error e => rfl
      | ok descend =>
        cases descend with
        | skip => rfl
        | children => simp [follow, Program.node, unread, Scope.openings, bind, Except.bind]
        | perCallable callables =>
          cases callables with
          | nil => rfl
          | cons first later => simp [follow, present, Scope.openings]

theorem walk_eq_recurse (forest : p.Forest) (visit : Visitor σ) (state : σ) (roots : List NodeId) :
    walk p visit state roots = inTurn (recurse forest visit {}) roots state := by
  unfold walk
  induction roots generalizing state with
  | nil => exact run_nil state {}
  | cons r rest ih =>
    rw [List.map_cons, run_enter_eq forest visit (.inr rfl), inTurn]
    congr 1
    funext state
    exact ih state

/-! ### Visits -/

/-- A visitor that also keeps a list of its visits. -/
def noting (visit : Visitor σ) : Visitor (σ × List (NodeId × Scope)) := fun (state, seen) node scope =>
  let (state, answer) := visit state node scope
  ((state, seen ++ [(node, scope)]), answer)

theorem advance_map {visit : Visitor σ} {visit' : Visitor τ} {forget : τ → σ}
    (same : ∀ state node scope,
      visit (forget state) node scope = (visit' state node scope).map forget id)
    (state : τ) (scope : Scope) (step : Step) :
    advance p visit (forget state) scope step =
      (advance p visit' state scope step).map forget id := by
  cases step with
  | enter node =>
    rw [advance, advance, same]
    cases visit' state node scope with
    | mk state' result =>
      split
      · rfl
      · split
        · rfl
        · cases result <;> rfl
  | _ => rfl

/-- A visitor that keeps more but answers as another one makes the same walk. -/
theorem run_map {visit : Visitor σ} {visit' : Visitor τ} {forget : τ → σ}
    (same : ∀ state node scope,
      visit (forget state) node scope = (visit' state node scope).map forget id)
    (state : τ) (scope : Scope) (work : List Step) :
    run p visit (forget state) scope work = (run p visit' state scope work).map forget id := by
  induction state, scope, work using run.induct p visit' with
  | case1 state scope =>
    rw [run_nil, run_nil]
    rfl
  | case2 state scope step rest state' e failed =>
    rw [run_cons, run_cons, advance_map same, failed]
    rfl
  | case3 state scope step rest state' steps scope' next ih =>
    rw [run_cons, run_cons, advance_map same, next]
    exact ih

/-! ### The stages of a walk -/

/-- A walk between two steps. -/
structure Stage (σ : Type) where
  state : σ
  scope : Scope
  work : List Step

def Stage.start (state : σ) (roots : List NodeId) : Stage σ := ⟨state, {}, roots.map .enter⟩

inductive Moves (p : Program) (visit : Visitor σ) : Stage σ → Stage σ → Prop where
  | step {state state' : σ} {scope scope' : Scope} {step : Step} {steps rest : List Step} :
      advance p visit state scope step = (state', .ok (steps, scope')) →
      Moves p visit ⟨state, scope, step :: rest⟩ ⟨state', scope', steps ++ rest⟩

/-- The stages that a walk comes to. -/
def Reaches (p : Program) (visit : Visitor σ) : Stage σ → Stage σ → Prop :=
  Relation.ReflTransGen (Moves p visit)

variable {visit : Visitor σ}

/-- A walk that does not fail comes to a stage without work. -/
theorem reaches_of_run {state state' : σ} {scope : Scope} {work : List Step}
    (ended : run p visit state scope work = (state', .ok ())) :
    ∃ scope', Reaches p visit ⟨state, scope, work⟩ ⟨state', scope', []⟩ := by
  induction state, scope, work using run.induct p visit with
  | case1 state scope =>
    rw [run_nil] at ended
    cases ended
    exact ⟨scope, .refl⟩
  | case2 state scope step rest state₁ e failed =>
    rw [run_cons, failed] at ended
    cases ended
  | case3 state scope step rest state₁ steps scope₁ next ih =>
    rw [run_cons, next] at ended
    obtain ⟨scope', reached⟩ := ih ended
    exact ⟨scope', .head (.step next) reached⟩

/-- Every stage goes on to the end of the whole walk. -/
theorem Reaches.run_eq {c d : Stage σ} (reached : Reaches p visit c d) :
    run p visit d.state d.scope d.work = run p visit c.state c.scope c.work := by
  induction reached with
  | refl => rfl
  | tail _ move ih =>
    rw [← ih]
    cases move with
    | step next => rw [run_cons, next]

/-! ### What the pending steps take away -/

/-- The scope after a step that schedules nothing; none if the step takes away what is not there. -/
def Step.settle : Step → Scope → Option Scope
  | .enter _, scope => some scope
  | .pushCallable callable replay, scope => some (scope.inside callable replay)
  | .popCallable replay, scope =>
    if scope.callables = [] ∨ scope.replays < replay.toNat then none
    else some { scope with
      callables := scope.callables.tail, replays := scope.replays - replay.toNat }
  | .popType, scope =>
    if scope.types = [] then none else some { scope with types := scope.types.tail }

/-- The scope after all pending steps, if no node were entered any more. -/
def unwind (work : List Step) (scope : Scope) : Option Scope :=
  work.foldlM (fun scope step => step.settle scope) scope

theorem settle_popCallable (scope : Scope) (callable : NodeId) (replay : Bool) :
    (Step.popCallable replay).settle (scope.inside callable replay) = some scope := by
  simp [Step.settle, Scope.inside, Nat.not_lt.mpr (Nat.le_add_left _ _)]

theorem settle_popType (scope : Scope) (type : NodeId) :
    Step.popType.settle { scope with types := type :: scope.types } = some scope := by
  simp [Step.settle]

theorem unwind_cons (step : Step) (rest : List Step) (scope : Scope) :
    unwind (step :: rest) scope = (step.settle scope).bind (unwind rest) := rfl

theorem unwind_append (first second : List Step) (scope : Scope) :
    unwind (first ++ second) scope = (unwind first scope).bind (unwind second) :=
  List.foldlM_append

theorem unwind_enterAll (nodes : List NodeId) (scope : Scope) :
    unwind (nodes.map .enter) scope = some scope := by
  induction nodes with
  | nil => rfl
  | cons n rest ih =>
    rw [List.map_cons, unwind_cons]
    exact ih

theorem unwind_enterChildren (p : Program) (node : NodeId) (scope : Scope) :
    unwind (enterChildren p node) scope = some scope :=
  unwind_enterAll _ scope

theorem unwind_pass (p : Program) (node callable : NodeId) (replay : Bool) (scope : Scope) :
    unwind (pass p node callable replay) scope = some scope := by
  rw [pass, List.cons_append, unwind_cons, Step.settle, Option.bind_some, unwind_append,
    unwind_enterChildren, Option.bind_some, unwind_cons, settle_popCallable]
  rfl

theorem unwind_passes (p : Program) (node : NodeId) (callables : List NodeId) (scope : Scope) :
    unwind (passes p node callables) scope = some scope := by
  have repeats : ∀ later : List NodeId,
      unwind (later.flatMap (pass p node · true)) scope = some scope := by
    intro later
    induction later with
    | nil => rfl
    | cons callable later ih =>
      rw [List.flatMap_cons, unwind_append, unwind_pass]
      exact ih
  cases callables with
  | nil => rfl
  | cons first later =>
    rw [passes, unwind_append, unwind_pass]
    exact repeats later

/-- The steps that follow a visit lead back to the scope of the visit. -/
theorem unwind_follow {node : NodeId} {scope scope' : Scope} {descend : Descend}
    {steps : List Step} (next : follow p node scope descend = .ok (steps, scope')) :
    unwind steps scope' = some scope := by
  cases descend with
  | skip =>
    cases next
    rfl
  | perCallable callables =>
    rw [follow] at next
    split at next
    · cases next
      exact unwind_passes p node callables scope
    · cases next
  | children =>
    simp only [follow, bind, Except.bind] at next
    split at next
    · cases next
    · split at next
      · cases next
        rw [unwind_append, unwind_enterChildren, Option.bind_some, unwind_cons, settle_popType]
        rfl
      · cases next
        -- a callable is left as the first of several passes is
        have entered : { scope with callables := node :: scope.callables } =
            scope.inside node false := rfl
        rw [unwind_append, unwind_enterChildren, Option.bind_some, unwind_cons, entered,
          settle_popCallable]
        rfl
      · cases next
        exact unwind_enterChildren p node scope

/-- A step that takes away only what is there changes nothing in what the work comes to. -/
theorem unwind_advance {state state' : σ} {scope scope' final : Scope} {step : Step}
    {steps rest : List Step} (sound : unwind (step :: rest) scope = some final)
    (next : advance p visit state scope step = (state', .ok (steps, scope'))) :
    unwind (steps ++ rest) scope' = some final := by
  rw [unwind_cons] at sound
  rw [unwind_append]
  cases step with
  | enter node =>
    rw [advance] at next
    split at next
    · cases next
    · split at next
      · cases next
        exact sound
      · split at next
        · cases next
        · next descend _ =>
          simp only [Prod.mk.injEq] at next
          rw [unwind_follow next.2]
          exact sound
  | pushCallable callable replay =>
    cases next
    exact sound
  | popCallable replay =>
    cases next
    rw [Step.settle] at sound
    split at sound
    · cases sound
    · exact sound
  | popType =>
    cases next
    rw [Step.settle] at sound
    split at sound
    · cases sound
    · exact sound

/-- Along a walk the pending steps always lead back to the empty scope. -/
theorem Reaches.unwind_eq {state : σ} {roots : List NodeId} {c : Stage σ}
    (reached : Reaches p visit (.start state roots) c) : unwind c.work c.scope = some {} := by
  induction reached with
  | refl => exact unwind_enterAll roots {}
  | tail _ move ih =>
    cases move with
    | step next => exact unwind_advance ih next

/-- The next step finds what it takes away, and at the end nothing is left. -/
def Stage.Balanced (c : Stage σ) : Prop :=
  match c.work with
  | [] => c.scope = {}
  | .popCallable replay :: _ => c.scope.callables ≠ [] ∧ replay.toNat ≤ c.scope.replays
  | .popType :: _ => c.scope.types ≠ []
  | _ => True

theorem Stage.balanced_of_unwind {c : Stage σ} (sound : unwind c.work c.scope = some {}) :
    c.Balanced := by
  unfold Stage.Balanced
  split
  · next done =>
    rw [done] at sound
    exact Option.some.inj sound
  · next replay rest pending =>
    rw [pending, unwind_cons, Step.settle] at sound
    split at sound
    · cases sound
    · next there =>
      rw [not_or, Nat.not_lt] at there
      exact there
  · next rest pending =>
    rw [pending, unwind_cons, Step.settle] at sound
    split at sound
    · cases sound
    · next there => exact there
  · trivial

/-- For every visitor and all roots the walk comes to the state and the result of the recursion, and
makes the same visits in the same scopes: a visitor that keeps a list of its visits keeps the same
list in both, and walks as it would without one. At every stage on the way the next step finds what
it takes away from the scope. A walk that does not fail ends with both stacks empty and no repeated
pass under way. -/
theorem walk_refines_recursion (grown : p.Grown) (visit : Visitor σ) (state : σ)
    (roots : List NodeId) :
    walk p visit state roots = inTurn (recurse grown.forest visit {}) roots state ∧
      walk p (noting visit) (state, []) roots =
        inTurn (recurse grown.forest (noting visit) {}) roots (state, []) ∧
      (walk p (noting visit) (state, []) roots).map Prod.fst id = walk p visit state roots ∧
      (∀ c, Reaches p visit (.start state roots) c →
        c.Balanced ∧ run p visit c.state c.scope c.work = walk p visit state roots) ∧
      ∀ state', walk p visit state roots = (state', .ok ()) →
        Reaches p visit (.start state roots) ⟨state', {}, []⟩ := by
  refine ⟨walk_eq_recurse grown.forest visit state roots,
    walk_eq_recurse grown.forest (noting visit) (state, []) roots, ?_, ?_, ?_⟩
  · have kept : ∀ s node scope, visit (Prod.fst s) node scope =
        (noting visit s node scope).map Prod.fst id := fun _ _ _ => rfl
    exact (run_map kept (state, []) {} _).symm
  · intro c reached
    exact ⟨Stage.balanced_of_unwind reached.unwind_eq, reached.run_eq⟩
  · intro state' ended
    obtain ⟨scope', reached⟩ := reaches_of_run ended
    have empty : scope' = {} := Option.some.inj reached.unwind_eq
    rwa [empty] at reached

/-- A type with two constructors and a field, in whose initializer stand a call and a class with a
call of its own. -/
def initialized : Program :=
  Program.empty
    |>.addUnit { path := "A.java" }
    |>.append ⟨0⟩ (.type { kind := .classType, name := "A" }) .unknown
    |>.append ⟨1⟩ (.callable { kind := .constructor, name := "A" }) .unknown
    |>.append ⟨1⟩ (.callable { kind := .constructor, name := "A" }) .unknown
    |>.append ⟨1⟩ (.field { typeName := "int", names := ["x"] }) .unknown
    |>.append ⟨4⟩ (.methodCall { name := "m" }) .unknown
    |>.append ⟨4⟩ (.type { kind := .classType, name := "B" }) .unknown
    |>.append ⟨6⟩ (.methodCall { name := "n" }) .unknown

theorem initialized_grown : initialized.Grown := by
  unfold initialized
  repeat' constructor

/-- Walks the field once for each constructor. -/
def perConstructor : Visitor Unit := fun state node _ =>
  (state, .ok (if node = ⟨4⟩ then .perCallable [⟨2⟩, ⟨3⟩] else .children))

/-- The second pass meets the call again, and leaves out the class. -/
def initializedVisits : List (NodeId × Scope) :=
  [(⟨0⟩, {}), (⟨1⟩, {}), (⟨2⟩, { types := [⟨1⟩] }), (⟨3⟩, { types := [⟨1⟩] }),
    (⟨4⟩, { types := [⟨1⟩] }), (⟨5⟩, { types := [⟨1⟩], callables := [⟨2⟩] }),
    (⟨6⟩, { types := [⟨1⟩], callables := [⟨2⟩] }), (⟨7⟩, { types := [⟨6⟩, ⟨1⟩], callables := [⟨2⟩] }),
    (⟨5⟩, { types := [⟨1⟩], callables := [⟨3⟩], replays := 1 })]

theorem walk_refines_recursion_initialized :
    walk initialized (noting perConstructor) ((), []) [⟨0⟩] = (((), initializedVisits), .ok ()) ∧
      inTurn (recurse initialized_grown.forest (noting perConstructor) {}) [⟨0⟩] ((), []) =
        (((), initializedVisits), .ok ()) ∧
      Reaches initialized perConstructor (.start () [⟨0⟩]) ⟨(), {}, []⟩ := by
  have walked : walk initialized (noting perConstructor) ((), []) [⟨0⟩] =
      (((), initializedVisits), .ok ()) := by
    rw [walk_eq initialized_grown.forest _ (by decide)]
    rfl
  obtain ⟨-, visits, same, -, ends⟩ :=
    walk_refines_recursion initialized_grown perConstructor () [⟨0⟩]
  rw [walked] at visits same
  exact ⟨walked, visits.symm, ends () same.symm⟩

end JavaCallGraph.Walk
