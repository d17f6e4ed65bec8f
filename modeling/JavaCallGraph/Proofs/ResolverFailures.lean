import JavaCallGraph.Proofs.Program.Operands
import JavaCallGraph.Proofs.Resolver

/-!
How a resolution can fail.

Resolving a call and typing a node fail in three ways only: something is unresolved, a number names
no node, or a type is defined through itself. The last two come from the operands of a node, and do
not happen where operands are children. `FailsOnlyBy` passes through `do` blocks, so each rule of the
resolver needs a look at its own failures alone, and at those of the operands it asks for.
-/

namespace JavaCallGraph

/-- Every failure of a computation is an allowed one. -/
def FailsOnlyBy {α : Type} (allowed : Error → Prop) (computed : Except Error α) : Prop :=
  ∀ e, computed = .error e → allowed e

namespace FailsOnlyBy

variable {α β : Type} {allowed wider : Error → Prop}

theorem ok (a : α) : FailsOnlyBy allowed (.ok a) := by
  intro e failed
  cases failed

theorem error {e : Error} (permitted : allowed e) : FailsOnlyBy (α := α) allowed (.error e) := by
  intro e' failed
  cases failed
  exact permitted

theorem mono {computed : Except Error α} (weaker : ∀ e, allowed e → wider e)
    (fails : FailsOnlyBy allowed computed) : FailsOnlyBy wider computed :=
  fun e failed => weaker e (fails e failed)

theorem bind {first : Except Error α} {next : α → Except Error β}
    (fails : FailsOnlyBy allowed first)
    (later : ∀ a, first = .ok a → FailsOnlyBy allowed (next a)) :
    FailsOnlyBy allowed (first >>= next) := by
  cases first with
  | error e => exact error (fails e rfl)
  | ok a => exact later a rfl

theorem mapM {act : α → Except Error β} {xs : List α}
    (fails : ∀ x ∈ xs, FailsOnlyBy allowed (act x)) : FailsOnlyBy allowed (xs.mapM act) := by
  induction xs with
  | nil => exact ok []
  | cons x rest ih =>
    rw [List.mapM_cons]
    apply bind (fails x List.mem_cons_self)
    intro y _
    apply bind (ih fun z later => fails z (List.mem_cons_of_mem _ later))
    intro ys _
    exact ok (y :: ys)

end FailsOnlyBy

namespace Resolver

variable {h : Hierarchy} {typeOf : NodeId → Except Error NodeId} {allowed : Error → Prop}

/-! ### Failures of the rules -/

theorem argumentType_fails {argument : NodeId} (typing : FailsOnlyBy allowed (typeOf argument)) :
    FailsOnlyBy allowed (argumentType h typeOf argument) := by
  unfold argumentType
  split
  · exact .ok _
  · exact .ok _
  · refine .bind ?_ fun _ _ => .ok _
    cases typed : typeOf argument with
    | ok t => exact .ok _
    | error e =>
      rw [orUnknown]
      split
      · exact .error (typing e typed)
      · exact .ok _

theorem bestCandidate_fails {call : NodeId}
    (typing : ∀ a ∈ h.program.arguments call, FailsOnlyBy allowed (typeOf a))
    (candidates : List NodeId) :
    FailsOnlyBy allowed (bestCandidate h typeOf call candidates) := by
  unfold bestCandidate
  split
  · exact .ok _
  · exact .ok _
  · exact .bind (.mapM fun a member => argumentType_fails (typing a member)) fun _ _ => .ok _

section

variable (plain : ∀ reason, allowed (.unresolved reason))

include plain

theorem unresolved_fails {α : Type} (reason : String) :
    FailsOnlyBy allowed (unresolved reason : Except Error α) :=
  .error (plain reason)

theorem orUnresolved_fails {α : Type} (reason : String) (found : Option α) :
    FailsOnlyBy allowed (orUnresolved reason found) := by
  cases found with
  | none => exact unresolved_fails plain reason
  | some a => exact .ok a

theorem report_fails (decl : NodeId) : FailsOnlyBy allowed (report h decl) := by
  unfold report
  split
  · cases signature : h.program.qualifiedSignature? decl with
    | none => exact unresolved_fails plain _
    | some s => exact .ok _
  · exact .ok _

theorem searchRoots_fails {scope : CallScope}
    (typing : ∀ e, scope = .expression e → FailsOnlyBy allowed (typeOf e)) (call : NodeId) :
    FailsOnlyBy allowed (searchRoots h typeOf call scope) := by
  cases scope with
  | implicit => exact .ok _
  | this => exact .bind (orUnresolved_fails plain _ _) fun _ _ => .ok _
  | qualifiedThis name => exact .bind (orUnresolved_fails plain _ _) fun _ _ => .ok _
  | super =>
    apply FailsOnlyBy.bind (orUnresolved_fails plain _ _)
    intro type _
    exact .bind (orUnresolved_fails plain _ _) fun _ _ => .ok _
  | qualifiedSuper name =>
    apply FailsOnlyBy.bind (orUnresolved_fails plain _ _)
    intro named _
    exact .bind (orUnresolved_fails plain _ _) fun _ _ => .ok _
  | expression receiver => exact .bind (typing receiver rfl) fun _ _ => .ok _

/-- The end that all three kinds of call share: choose an overload and report it. -/
theorem chooseAndReport_fails {call : NodeId}
    (typing : ∀ a ∈ h.program.arguments call, FailsOnlyBy allowed (typeOf a))
    (candidates : List NodeId) (reason : String) :
    FailsOnlyBy allowed (do
      report h (← orUnresolved reason (← bestCandidate h typeOf call candidates))) := by
  apply FailsOnlyBy.bind (bestCandidate_fails typing candidates)
  intro best _
  apply FailsOnlyBy.bind (orUnresolved_fails plain reason best)
  intro decl _
  exact report_fails plain decl

theorem returnType_fails (resolution : Resolution) :
    FailsOnlyBy allowed (returnType h resolution) := by
  unfold returnType
  split
  · split
    · exact orUnresolved_fails plain _ _
    · exact unresolved_fails plain _
    · exact unresolved_fails plain _
  · exact unresolved_fails plain _

variable {node : NodeId} (typing : ∀ c, h.program.Operand node c → FailsOnlyBy allowed (typeOf c))

include typing

theorem accessType_fails (field : String) :
    FailsOnlyBy allowed (accessType h typeOf node field) := by
  apply FailsOnlyBy.bind (orUnresolved_fails plain _ _)
  intro object first
  apply FailsOnlyBy.bind (typing object (.object (orUnresolved_eq_ok.mp first)))
  intro owner _
  split
  · exact orUnresolved_fails plain _ _
  · exact unresolved_fails plain _

variable (found : FailsOnlyBy allowed (h.program.node node))

include found

theorem resolveWith_fails : FailsOnlyBy allowed (resolveWith h typeOf node) := by
  have arguments : ∀ a ∈ h.program.arguments node, FailsOnlyBy allowed (typeOf a) :=
    fun a member => typing a (.argument member)
  apply FailsOnlyBy.bind found
  intro n read
  have kindAt : h.program.kind? node = some n.kind := by
    simp [Program.kind?, Program.node_eq_ok.mp read]
  split
  · next c kind =>
    have receiver : ∀ e, c.scope = .expression e → FailsOnlyBy allowed (typeOf e) :=
      fun e scope => typing e (.receiver (Program.receiver?_of_scope (kind ▸ kindAt) scope))
    apply FailsOnlyBy.bind (searchRoots_fails plain receiver node)
    intro roots _
    exact chooseAndReport_fails plain arguments _ _
  · apply FailsOnlyBy.bind (orUnresolved_fails plain _ _)
    intro type _
    exact chooseAndReport_fails plain arguments _ _
  · apply FailsOnlyBy.bind (orUnresolved_fails plain _ _)
    intro current _
    split
    · exact chooseAndReport_fails plain arguments _ _
    · apply FailsOnlyBy.bind (orUnresolved_fails plain _ _)
      intro type _
      exact chooseAndReport_fails plain arguments _ _
  · exact unresolved_fails plain _

theorem staticTypeWith_fails : FailsOnlyBy allowed (staticTypeWith h typeOf node) := by
  apply FailsOnlyBy.bind found
  intro n _
  split
  · split <;> exact orUnresolved_fails plain _ _
  · exact orUnresolved_fails plain _ _
  · exact orUnresolved_fails plain _ _
  · exact accessType_fails plain typing _
  · exact orUnresolved_fails plain _ _
  · exact orUnresolved_fails plain _ _
  · exact orUnresolved_fails plain _ _
  · apply FailsOnlyBy.bind (resolveWith_fails plain typing found)
    intro resolution _
    exact returnType_fails plain resolution
  · exact unresolved_fails plain _

end

/-! ### Any program -/

/-- The ways in which a resolution fails. -/
inductive Failure : Error → Prop where
  | unresolved (reason : String) : Failure (.unresolved reason)
  | missingNode (id : NodeId) : Failure (.missingNode id)
  | endlessType (id : NodeId) : Failure (.endlessType id)

theorem node_fails (p : Program) (id : NodeId) : FailsOnlyBy Failure (p.node id) := by
  unfold Program.node
  split
  · exact .ok _
  · exact .error (.missingNode id)

theorem staticTypeWithin_fails (depth : Nat) (node : NodeId) :
    FailsOnlyBy Failure (staticTypeWithin h depth node) := by
  induction depth generalizing node with
  | zero => exact .error (.endlessType node)
  | succ depth ih => exact staticTypeWith_fails .unresolved (fun c _ => ih c) (node_fails _ _)

theorem staticType_fails (node : NodeId) : FailsOnlyBy Failure (staticType h node) :=
  staticTypeWithin_fails _ node

/-! ### Operands that are children -/

/-- A failure to find what something names. -/
inductive Unresolved : Error → Prop where
  | intro (reason : String) : Unresolved (.unresolved reason)

theorem node_ne_error {p : Program} {id : NodeId} (present : p.has id) :
    FailsOnlyBy allowed (p.node id) := by
  unfold Program.node
  split
  · exact .ok _
  · next absent => exact absurd present (Program.get?_eq_none_iff.mp absent)

section

variable (forest : h.program.Forest)
  (operands : ∀ n c, h.program.Operand n c → c ∈ h.program.children n)

include forest operands

/-- Children have higher numbers, so a chain of operands ends before it is longer than the
program. -/
theorem staticTypeWithin_unresolved {depth : Nat} {node : NodeId} (present : h.program.has node)
    (deep : h.program.size ≤ node.index + depth) :
    FailsOnlyBy Unresolved (staticTypeWithin h depth node) := by
  induction depth generalizing node with
  | zero =>
    have small := Program.has_iff.mp present
    omega
  | succ depth ih =>
    refine staticTypeWith_fails .intro ?_ (node_ne_error present)
    intro c operand
    obtain ⟨higher, small⟩ := forest.child_lt (operands node c operand)
    apply ih (Program.has_iff.mpr small)
    omega

theorem staticType_unresolved {node c : NodeId} (operand : h.program.Operand node c) :
    FailsOnlyBy Unresolved (staticType h c) := by
  obtain ⟨-, small⟩ := forest.child_lt (operands node c operand)
  apply staticTypeWithin_unresolved forest operands (Program.has_iff.mpr small)
  omega

end

end Resolver

end JavaCallGraph
