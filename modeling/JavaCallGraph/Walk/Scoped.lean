import JavaCallGraph.Program.Ancestry
import JavaCallGraph.Walk.Agenda

/-!
Scoped pre-order walk over a program.

The walk keeps the enclosing type declarations and the enclosing callables and shows them to a
visitor at every node. It works off a list of steps: entering a type or callable schedules the
matching leave step after its children.

A visitor may ask for the children once per listed callable. Declarations nested below belong to
themselves and not to the listed callable, so later passes leave them out.
-/

namespace JavaCallGraph.Walk

/-- The declarations around the node being visited, innermost first, and the number of repeated
passes under way. -/
structure Scope where
  types : List NodeId := []
  callables : List NodeId := []
  replays : Nat := 0
  deriving DecidableEq, Repr

namespace Scope

def currentType? (s : Scope) : Option NodeId := s.types.head?

def currentCallable? (s : Scope) : Option NodeId := s.callables.head?

end Scope

/-- What the walk does with the children of a visited node. -/
inductive Descend where
  | children
  | skip
  /-- Walk the children once per listed callable, each time inside that callable. -/
  | perCallable (callables : List NodeId)
  deriving DecidableEq, Repr

/-- A visitor with a state: at a node and its scope it changes the state and answers how to go
on, or fails. -/
abbrev Visitor (σ : Type) := σ → NodeId → Scope → σ × Except Error Descend

inductive Step where
  | enter (node : NodeId)
  | pushCallable (callable : NodeId) (replay : Bool)
  | popCallable (replay : Bool)
  | popType
  deriving DecidableEq, Repr

/-- Entering a node schedules only entries of nodes with larger numbers. -/
def Step.rank (p : Program) : Step → Nat
  | .enter node => p.size - node.index + 1
  | _ => 0

/-- Enter the children, which have larger numbers than their parent. -/
def enterChildren (p : Program) (node : NodeId) : List Step :=
  ((p.children node).filter (node.index < ·.index)).map .enter

/-- One pass over the children inside a callable. -/
def pass (p : Program) (node callable : NodeId) (replay : Bool) : List Step :=
  .pushCallable callable replay :: enterChildren p node ++ [.popCallable replay]

/-- The passes for a list of callables; all after the first are repeats. -/
def passes (p : Program) (node : NodeId) : List NodeId → List Step
  | [] => []
  | first :: later => pass p node first false ++ later.flatMap (pass p node · true)

/-- What follows the visit of a node: the steps to schedule and the scope they start in. -/
def follow (p : Program) (node : NodeId) (scope : Scope) :
    Descend → Except Error (List Step × Scope)
  | .skip => .ok ([], scope)
  | .perCallable callables =>
    if callables.isEmpty || p.has node then .ok (passes p node callables, scope)
    else .error (.missingNode node)
  | .children => do
    match (← p.node node).kind with
    | .type _ =>
      return (enterChildren p node ++ [.popType], { scope with types := node :: scope.types })
    | .callable _ =>
      return (enterChildren p node ++ [.popCallable false],
        { scope with callables := node :: scope.callables })
    | _ => return (enterChildren p node, scope)

/-- One step of the walk: the steps it schedules and the scope after it. -/
def advance {σ : Type} (p : Program) (visit : Visitor σ) (state : σ) (scope : Scope) :
    Step → σ × Except Error (List Step × Scope)
  | .pushCallable callable replay =>
    (state, .ok ([], { scope with
      callables := callable :: scope.callables, replays := scope.replays + replay.toNat }))
  | .popCallable replay =>
    (state, .ok ([], { scope with
      callables := scope.callables.tail, replays := scope.replays - replay.toNat }))
  | .popType => (state, .ok ([], { scope with types := scope.types.tail }))
  | .enter node =>
    if 0 < scope.replays && !p.has node then (state, .error (.missingNode node))
    else if 0 < scope.replays && p.isDeclaration node then (state, .ok ([], scope))
    else
      match visit state node scope with
      | (state, .error e) => (state, .error e)
      | (state, .ok descend) => (state, follow p node scope descend)

theorem rank_enterChildren {p : Program} {node : NodeId} {s : Step}
    (h : s ∈ enterChildren p node) : s.rank p < (Step.enter node).rank p := by
  simp only [enterChildren, List.mem_map, List.mem_filter, decide_eq_true_eq] at h
  obtain ⟨c, ⟨hc, lt⟩, rfl⟩ := h
  have : node.index < p.size := by
    by_cases hn : node.index < p.size
    · exact hn
    · have : p.get? node = none := by simp [Program.get?, Program.size] at *; omega
      simp [Program.children, this] at hc
  simp only [Step.rank]
  omega

theorem rank_pass {p : Program} {node callable : NodeId} {replay : Bool} {s : Step}
    (h : s ∈ pass p node callable replay) : s.rank p < (Step.enter node).rank p := by
  simp only [pass, List.cons_append, List.mem_cons, List.mem_append, List.not_mem_nil,
    or_false] at h
  rcases h with rfl | h | rfl
  · simp [Step.rank]
  · exact rank_enterChildren h
  · simp [Step.rank]

theorem rank_passes {p : Program} {node : NodeId} {callables : List NodeId} {s : Step}
    (h : s ∈ passes p node callables) : s.rank p < (Step.enter node).rank p := by
  cases callables with
  | nil => simp [passes] at h
  | cons first later =>
    simp only [passes, List.mem_append, List.mem_flatMap] at h
    rcases h with h | ⟨_, _, h⟩ <;> exact rank_pass h

theorem rank_follow {p : Program} {node : NodeId} {scope scope' : Scope} {d : Descend}
    {steps : List Step} (h : follow p node scope d = .ok (steps, scope')) :
    ∀ s ∈ steps, s.rank p < (Step.enter node).rank p := by
  intro s hs
  cases d with
  | skip => simp only [follow, Except.ok.injEq, Prod.mk.injEq] at h; simp [← h.1] at hs
  | perCallable callables =>
    simp only [follow] at h
    split at h
    · simp only [Except.ok.injEq, Prod.mk.injEq] at h
      exact rank_passes (h.1 ▸ hs)
    · cases h
  | children =>
    simp only [follow, bind, Except.bind] at h
    split at h
    · cases h
    · split at h <;>
        simp only [pure, Except.pure, Except.ok.injEq, Prod.mk.injEq] at h <;>
        rw [← h.1] at hs
      · simp only [List.mem_append, List.mem_singleton] at hs
        rcases hs with hs | rfl
        · exact rank_enterChildren hs
        · simp [Step.rank]
      · simp only [List.mem_append, List.mem_singleton] at hs
        rcases hs with hs | rfl
        · exact rank_enterChildren hs
        · simp [Step.rank]
      · exact rank_enterChildren hs

/-- Every scheduled step has a smaller rank than the step that schedules it. -/
theorem rank_advance {σ : Type} {p : Program} {visit : Visitor σ} {state state' : σ}
    {scope scope' : Scope} {step : Step} {steps : List Step}
    (h : advance p visit state scope step = (state', .ok (steps, scope'))) :
    ∀ s ∈ steps, s.rank p < step.rank p := by
  cases step with
  | enter node =>
    simp only [advance] at h
    split at h
    · simp at h
    · split at h
      · simp only [Prod.mk.injEq, Except.ok.injEq] at h; simp [← h.2.1]
      · split at h
        · simp at h
        · simp only [Prod.mk.injEq] at h
          exact rank_follow h.2
  | pushCallable _ _ => simp only [advance, Prod.mk.injEq, Except.ok.injEq] at h; simp [← h.2.1]
  | popCallable _ => simp only [advance, Prod.mk.injEq, Except.ok.injEq] at h; simp [← h.2.1]
  | popType => simp only [advance, Prod.mk.injEq, Except.ok.injEq] at h; simp [← h.2.1]

/-- Work off a list of steps. The answer is the visitor's last state and the failure that ended
the walk, if any. -/
def run {σ : Type} (p : Program) (visit : Visitor σ) (state : σ) (scope : Scope)
    (work : List Step) : σ × Except Error Unit :=
  match work with
  | [] => (state, .ok ())
  | step :: rest =>
    match _h : advance p visit state scope step with
    | (state, .error e) => (state, .error e)
    | (state, .ok (steps, scope)) => run p visit state scope (steps ++ rest)
termination_by Agenda.mk (work.map (Step.rank p))
decreasing_by
  simp only [List.map_append, List.map_cons]
  refine Agenda.Smaller.replace ?_
  simp only [List.mem_map]
  rintro _ ⟨s, hs, rfl⟩
  exact rank_advance _h s hs

/-- Walk every root in order, with each node visited before its children. -/
def walk {σ : Type} (p : Program) (visit : Visitor σ) (state : σ) (roots : List NodeId) :
    σ × Except Error Unit :=
  run p visit state {} (roots.map .enter)

end JavaCallGraph.Walk
