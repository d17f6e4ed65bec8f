import JavaCallGraph.Proofs.Program.Forest

/-!
The operands of calls and expressions.

What a call names and which type an expression has may depend on the types of other nodes: on the
arguments, on the receiver and on the first child. A call is entered without arguments and gets each
of them by an insertion below it, so an argument is a child of its call.
-/

namespace JavaCallGraph

theorem NodeKind.arguments_addArgument (k : NodeKind) (a : NodeId) :
    (k.addArgument a).arguments ⊆ k.arguments ++ [a] := by
  cases k <;> simp [addArgument, arguments]

theorem NodeKind.arguments_setReceiver (k : NodeKind) (r : NodeId) :
    (k.setReceiver r).arguments = k.arguments := by
  cases k <;> rfl

namespace Program

variable {p : Program}

/-- The expression before the name in a method call. -/
def receiver? (p : Program) (call : NodeId) : Option NodeId :=
  match p.kind? call with
  | some (.methodCall { scope := .expression e, .. }) => some e
  | _ => none

theorem receiver?_of_scope {call e : NodeId} {c : MethodCall}
    (kind : p.kind? call = some (.methodCall c)) (scope : c.scope = .expression e) :
    p.receiver? call = some e := by
  obtain ⟨name, form, arguments⟩ := c
  subst scope
  simp [receiver?, kind]

/-- A node whose type may be needed to type another or to find what it names. -/
inductive Operand (p : Program) (n : NodeId) : NodeId → Prop where
  | argument {a : NodeId} : a ∈ p.arguments n → Operand p n a
  | receiver {e : NodeId} : p.receiver? n = some e → Operand p n e
  | object {c : NodeId} : (p.children n).head? = some c → Operand p n c

/-- Every receiver is a child of its call. -/
def ReceiversBelow (p : Program) : Prop :=
  ∀ call e, p.receiver? call = some e → e ∈ p.children call

theorem receiversBelow_iff :
    p.ReceiversBelow ↔ ∀ call ∈ p.ids, ∀ e ∈ p.receiver? call, e ∈ p.children call := by
  constructor
  · intro below call _ e receiver
    exact below call e receiver
  · intro below call e receiver
    refine below call (mem_ids.mpr ?_) e receiver
    by_contra absent
    rw [receiver?, kind?, get?_eq_none_iff.mpr absent] at receiver
    cases receiver

instance (p : Program) : Decidable p.ReceiversBelow := decidable_of_iff' _ receiversBelow_iff

/-! ### Arguments are children -/

def ArgumentsBelow (p : Program) : Prop :=
  ∀ id n, p.get? id = some n → n.kind.arguments ⊆ n.children

namespace ArgumentsBelow

theorem addUnit (below : p.ArgumentsBelow) (u : CompilationUnit) :
    (p.addUnit u).ArgumentsBelow := by
  intro id n read
  rw [get?_addUnit] at read
  split at read
  · cases read
    exact List.nil_subset _
  · exact below id n read

theorem append (below : p.ArgumentsBelow) {k : NodeKind} (bare : k.arguments = [])
    (parent : NodeId) (s : Span) : (p.append parent k s).ArgumentsBelow := by
  intro id n read
  rw [get?_append] at read
  obtain ⟨m, found, rfl⟩ := Option.map_eq_some_iff.mp read
  have kept : m.kind.arguments ⊆ m.children := by
    split at found
    · cases found
      simp [bare]
    · exact below id m found
  split
  · exact List.Subset.trans kept (List.subset_append_left _ _)
  · exact kept

/-- A change of one node that keeps its children and whose arguments are among them. -/
theorem modify (below : p.ArgumentsBelow) {id : NodeId} {f : Node → Node}
    (changed : ∀ n, p.get? id = some n → (f n).kind.arguments ⊆ (f n).children) :
    (p.modify id f).ArgumentsBelow := by
  intro x n read
  rw [get?_modify] at read
  split at read
  · next same =>
    subst same
    obtain ⟨m, found, rfl⟩ := Option.map_eq_some_iff.mp read
    exact changed m found
  · exact below x n read

theorem appendReceiver (below : p.ArgumentsBelow) {k : NodeKind} (bare : k.arguments = [])
    (call : NodeId) (s : Span) : (p.appendReceiver call k s).ArgumentsBelow := by
  have appended := below.append bare call s
  apply appended.modify
  intro n read
  rw [NodeKind.arguments_setReceiver]
  exact appended call n read

theorem appendArgument (below : p.ArgumentsBelow) {k : NodeKind} (bare : k.arguments = [])
    (call : NodeId) (s : Span) : (p.appendArgument call k s).ArgumentsBelow := by
  have appended := below.append bare call s
  apply appended.modify
  intro n read a member
  have listed : p.nextId ∈ n.children := by
    rw [get?_append] at read
    obtain ⟨m, -, rfl⟩ := Option.map_eq_some_iff.mp read
    simp
  rcases List.mem_append.mp (NodeKind.arguments_addArgument _ _ member) with old | new
  · exact appended call n read old
  · rw [List.mem_singleton.mp new]
    exact listed

end ArgumentsBelow

/-- Programs made by insertions, each below a node that is there and of a node that has no arguments
yet. -/
inductive Assembled : Program → Prop where
  | empty : Assembled .empty
  | addUnit {p : Program} (u : CompilationUnit) : Assembled p → Assembled (p.addUnit u)
  | append {p : Program} {parent : NodeId} {k : NodeKind} (s : Span) :
      Assembled p → p.has parent → k.arguments = [] → Assembled (p.append parent k s)
  | appendReceiver {p : Program} {call : NodeId} {k : NodeKind} (s : Span) :
      Assembled p → p.has call → k.arguments = [] → Assembled (p.appendReceiver call k s)
  | appendArgument {p : Program} {call : NodeId} {k : NodeKind} (s : Span) :
      Assembled p → p.has call → k.arguments = [] → Assembled (p.appendArgument call k s)
  | setSpan {p q : Program} {id : NodeId} {s : Span} :
      Assembled p → p.setSpan id s = .ok q → Assembled q

theorem Assembled.grown (assembled : p.Assembled) : p.Grown := by
  induction assembled with
  | empty => exact .empty
  | addUnit u _ ih => exact ih.addUnit u
  | append s _ present _ ih => exact ih.append _ s present
  | appendReceiver s _ present _ ih => exact ih.appendReceiver _ s present
  | appendArgument s _ present _ ih => exact ih.appendArgument _ s present
  | setSpan _ changed ih => exact ih.setSpan changed

theorem Assembled.argumentsBelow (assembled : p.Assembled) : p.ArgumentsBelow := by
  induction assembled with
  | empty =>
    intro id n read
    simp [get?, Program.empty] at read
  | addUnit u _ ih => exact ih.addUnit u
  | append s _ _ bare ih => exact ih.append bare _ s
  | appendReceiver s _ _ bare ih => exact ih.appendReceiver bare _ s
  | appendArgument s _ _ bare ih => exact ih.appendArgument bare _ s
  | @setSpan p q id s _ changed ih =>
    simp only [Program.setSpan, bind, Except.bind] at changed
    split at changed
    · cases changed
    · cases changed
      exact ih.modify fun n read => ih id n read

theorem ArgumentsBelow.mem_children (below : p.ArgumentsBelow) {n a : NodeId}
    (member : a ∈ p.arguments n) : a ∈ p.children n := by
  unfold arguments kind? at member
  unfold children
  cases read : p.get? n with
  | none => simp [read] at member
  | some m =>
    rw [read] at member
    exact below n m read member

theorem operand_mem_children (arguments : p.ArgumentsBelow) (receivers : p.ReceiversBelow)
    {n c : NodeId} (operand : p.Operand n c) : c ∈ p.children n := by
  cases operand with
  | argument member => exact arguments.mem_children member
  | receiver found => exact receivers n c found
  | object first => exact List.mem_of_head? first

end Program

end JavaCallGraph
