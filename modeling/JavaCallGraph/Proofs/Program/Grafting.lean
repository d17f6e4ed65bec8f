import JavaCallGraph.Proofs.Program.Forest

/-!
Renumbering nodes, and putting one program behind another.

`graft p q` is `p` with the nodes of `q` behind its own, where every number of `q` is moved up by
the size of `p`: those of parents and children, and those of arguments and receivers in the payloads.
An insertion into `q` and the same insertion, moved up, into the graft come to the same.
-/

namespace JavaCallGraph

/-! ### Renumbering -/

def NodeId.shift (offset : Nat) (id : NodeId) : NodeId := ⟨offset + id.index⟩

theorem NodeId.shift_injective {offset : Nat} {a b : NodeId}
    (same : a.shift offset = b.shift offset) : a = b := by
  obtain ⟨i⟩ := a
  obtain ⟨j⟩ := b
  simpa [shift] using same

theorem NodeId.shift_zero (id : NodeId) : id.shift 0 = id := by
  simp [shift]

theorem NodeId.shift_shift (a b : Nat) (id : NodeId) : (id.shift b).shift a = id.shift (a + b) := by
  simp [shift, Nat.add_assoc]

theorem NodeId.exists_shift {offset : Nat} {id : NodeId} (later : offset ≤ id.index) :
    ∃ k : NodeId, id = k.shift offset := by
  refine ⟨⟨id.index - offset⟩, ?_⟩
  obtain ⟨i⟩ := id
  simp only [shift, NodeId.mk.injEq]
  simp only at later
  omega

def CallScope.rename (f : NodeId → NodeId) : CallScope → CallScope
  | .expression receiver => .expression (f receiver)
  | scope => scope

namespace NodeKind

/-- The nodes that a payload names. -/
def references : NodeKind → List NodeId
  | methodCall { scope := .expression receiver, arguments, .. } => receiver :: arguments
  | k => k.arguments

def rename (f : NodeId → NodeId) : NodeKind → NodeKind
  | methodCall c =>
    methodCall { c with scope := c.scope.rename f, arguments := c.arguments.map f }
  | objectCreation c => objectCreation { c with arguments := c.arguments.map f }
  | constructorInvocation c => constructorInvocation { c with arguments := c.arguments.map f }
  | k => k

theorem rename_of_references {k : NodeKind} (none : k.references = []) (f : NodeId → NodeId) :
    k.rename f = k := by
  cases k with
  | methodCall c =>
    obtain ⟨name, scope, arguments⟩ := c
    cases scope <;> simp_all [references, NodeKind.arguments, rename, CallScope.rename]
  | objectCreation c =>
    obtain ⟨typeName, arguments⟩ := c
    simp_all [references, NodeKind.arguments, rename]
  | constructorInvocation c =>
    obtain ⟨isThis, arguments⟩ := c
    simp_all [references, NodeKind.arguments, rename]
  | _ => rfl

theorem rename_rename (k : NodeKind) (f g : NodeId → NodeId) :
    (k.rename f).rename g = k.rename fun id => g (f id) := by
  cases k with
  | methodCall c =>
    obtain ⟨name, scope, arguments⟩ := c
    cases scope <;> simp [rename, CallScope.rename, Function.comp_def]
  | objectCreation c => simp [rename, Function.comp_def]
  | constructorInvocation c => simp [rename, Function.comp_def]
  | _ => rfl

theorem rename_id (k : NodeKind) : (k.rename fun id => id) = k := by
  cases k with
  | methodCall c =>
    obtain ⟨name, scope, arguments⟩ := c
    cases scope <;> simp [rename, CallScope.rename]
  | objectCreation c => simp [rename]
  | constructorInvocation c => simp [rename]
  | _ => rfl

theorem rename_setReceiver (k : NodeKind) (r : NodeId) (f : NodeId → NodeId) :
    (k.setReceiver r).rename f = (k.rename f).setReceiver (f r) := by
  cases k <;> rfl

theorem rename_addArgument (k : NodeKind) (a : NodeId) (f : NodeId → NodeId) :
    (k.addArgument a).rename f = (k.rename f).addArgument (f a) := by
  cases k <;> simp [addArgument, rename]

end NodeKind

def Node.rename (f : NodeId → NodeId) (n : Node) : Node where
  kind := n.kind.rename f
  parent := n.parent.map f
  children := n.children.map f
  span := n.span

theorem Node.rename_id (n : Node) : (n.rename fun id => id) = n := by
  simp [rename, NodeKind.rename_id]

theorem Node.rename_rename (n : Node) (f g : NodeId → NodeId) :
    (n.rename f).rename g = n.rename fun id => g (f id) := by
  simp [rename, NodeKind.rename_rename, Function.comp_def]

namespace Program

theorem ext_get? {p q : Program} (units : p.units = q.units) (nodes : ∀ id, p.get? id = q.get? id) :
    p = q := by
  obtain ⟨ns, us⟩ := p
  obtain ⟨ms, vs⟩ := q
  cases units
  congr 1
  apply Array.ext_getElem?
  exact fun i => nodes ⟨i⟩

/-! ### Grafting -/

def graft (p q : Program) : Program where
  nodes := p.nodes ++ q.nodes.map (·.rename (·.shift p.size))
  units := p.units ++ q.units.map (·.shift p.size)

variable (p q : Program)

@[simp] theorem size_graft : (p.graft q).size = p.size + q.size := by
  simp [graft, size]

@[simp] theorem units_graft : (p.graft q).units = p.units ++ q.units.map (·.shift p.size) := rfl

theorem nextId_graft : (p.graft q).nextId = q.nextId.shift p.size := by
  simp [nextId, NodeId.shift]

theorem graft_empty : p.graft .empty = p := by
  simp [graft, empty]

/-- The nodes of the first program stay as they are. -/
theorem get?_graft_left {id : NodeId} (present : p.has id) : (p.graft q).get? id = p.get? id := by
  have small : id.index < p.nodes.size := has_iff.mp present
  simp only [get?, graft]
  rw [Array.getElem?_append_left small]

/-- The nodes of the second program are moved up. -/
theorem get?_graft_right (id : NodeId) :
    (p.graft q).get? (id.shift p.size) = (q.get? id).map (·.rename (·.shift p.size)) := by
  simp only [get?, graft, NodeId.shift]
  rw [Array.getElem?_append_right (by simp [size])]
  simp [size]

/-- A change of a node behind the first program. -/
theorem modify_graft (id : NodeId) {f g : Node → Node}
    (moved : ∀ n, g (n.rename (·.shift p.size)) = (f n).rename (·.shift p.size)) :
    (p.graft q).modify (id.shift p.size) g = p.graft (q.modify id f) := by
  apply ext_get?
  · rfl
  · intro x
    rw [get?_modify]
    by_cases old : p.has x
    · have apart : x ≠ id.shift p.size := by
        rintro rfl
        simp only [has_iff, NodeId.shift] at old
        omega
      rw [if_neg apart, get?_graft_left p q old, get?_graft_left p _ old]
    · obtain ⟨x, rfl⟩ := NodeId.exists_shift (Nat.le_of_not_lt (mt has_iff.mpr old))
      rw [get?_graft_right, get?_graft_right, get?_modify]
      by_cases same : x = id
      · subst same
        simp [Function.comp_def, moved]
      · have apart : x.shift p.size ≠ id.shift p.size := fun eq => same (NodeId.shift_injective eq)
        rw [if_neg apart, if_neg same]

theorem append_graft (parent : NodeId) (k : NodeKind) (s : Span) :
    (p.graft q).append (parent.shift p.size) (k.rename (·.shift p.size)) s =
      p.graft (q.append parent k s) := by
  have pushed : ({ p.graft q with
      nodes := (p.graft q).nodes.push
        { kind := k.rename (·.shift p.size), parent := some (parent.shift p.size), span := s } } :
        Program) =
      p.graft { q with nodes := q.nodes.push { kind := k, parent := some parent, span := s } } := by
    simp [graft, Node.rename]
  rw [append, append, pushed]
  apply modify_graft
  intro n
  simp [Node.rename, nextId_graft]

theorem appendReceiver_graft (call : NodeId) (k : NodeKind) (s : Span) :
    (p.graft q).appendReceiver (call.shift p.size) (k.rename (·.shift p.size)) s =
      p.graft (q.appendReceiver call k s) := by
  rw [appendReceiver, appendReceiver, append_graft, nextId_graft]
  apply modify_graft
  intro n
  simp [Node.rename, NodeKind.rename_setReceiver]

theorem appendArgument_graft (call : NodeId) (k : NodeKind) (s : Span) :
    (p.graft q).appendArgument (call.shift p.size) (k.rename (·.shift p.size)) s =
      p.graft (q.appendArgument call k s) := by
  rw [appendArgument, appendArgument, append_graft, nextId_graft]
  apply modify_graft
  intro n
  simp [Node.rename, NodeKind.rename_addArgument]

theorem graft_assoc (r : Program) : (p.graft q).graft r = p.graft (q.graft r) := by
  simp only [graft, Program.mk.injEq]
  constructor
  · simp [Array.append_assoc, Node.rename_rename, Function.comp_def, NodeId.shift_shift, size]
  · simp [Function.comp_def, NodeId.shift_shift, size]

theorem addUnit_graft (u : CompilationUnit) : (p.graft q).addUnit u = p.graft (q.addUnit u) := by
  simp only [addUnit, nextId_graft]
  simp [graft, Node.rename, NodeKind.rename]

end Program

end JavaCallGraph
