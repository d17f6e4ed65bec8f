import JavaCallGraph.Program.Naming
import JavaCallGraph.Proofs.Program.Grafting
import JavaCallGraph.Proofs.Program.Lineage
import Mathlib.Data.List.Find

/-!
Copies of a program inside another.

The outline of a node is what stays as it is while nodes are inserted below it: its payload without
the nodes that it names, its parent and its place in the text. A copy holds the outlines of a
program, moved up. All names are found on the way up to the root, so they are the same in every copy.
-/

namespace JavaCallGraph

/-! ### Outlines -/

namespace NodeKind

/-- What a payload says apart from the nodes it names and from where its file came. -/
def outline : NodeKind → NodeKind
  | unit u => unit { u with origin := .source }
  | methodCall c => methodCall { c with scope := .implicit, arguments := [] }
  | objectCreation c => objectCreation { c with arguments := [] }
  | constructorInvocation c => constructorInvocation { c with arguments := [] }
  | k => k

variable (k : NodeKind)

theorem outline_rename (f : NodeId → NodeId) : (k.rename f).outline = k.outline.rename f := by
  cases k <;> rfl

theorem rename_outline (f : NodeId → NodeId) : k.outline.rename f = k.outline := by
  cases k <;> rfl

theorem outline_setReceiver (r : NodeId) : (k.setReceiver r).outline = k.outline := by
  cases k <;> rfl

theorem outline_addArgument (a : NodeId) : (k.addArgument a).outline = k.outline := by
  cases k <;> rfl

theorem label_outline : k.outline.label = k.label := by
  cases k <;> rfl

end NodeKind

def Node.outline (n : Node) : Node := { n with kind := n.kind.outline, children := [] }

theorem Node.outline_rename (n : Node) (f : NodeId → NodeId) :
    (n.rename f).outline = n.outline.rename f := by
  simp [outline, rename, NodeKind.outline_rename]

namespace Program

def outline? (p : Program) (id : NodeId) : Option Node := (p.get? id).map (·.outline)

theorem outline?_modify (p : Program) {f : Node → Node} (same : ∀ n, (f n).outline = n.outline)
    (id x : NodeId) : (p.modify id f).outline? x = p.outline? x := by
  rw [outline?, get?_modify]
  by_cases here : x = id
  · simp [here, outline?, Function.comp_def, same]
  · rw [if_neg here, outline?]

theorem outline?_append (p : Program) (parent : NodeId) (k : NodeKind) (s : Span) (x : NodeId) :
    (p.append parent k s).outline? x =
      if x = p.nextId then some { kind := k.outline, parent := some parent, span := s }
      else p.outline? x := by
  have below : ∀ n : Node, (if x = parent then { n with children := n.children ++ [p.nextId] }
      else n).outline = n.outline := by
    intro n
    split <;> rfl
  rw [outline?, get?_append]
  by_cases new : x = p.nextId
  · rw [if_pos new, if_pos new]
    exact congrArg some (below _)
  · simp [new, outline?, Function.comp_def, below]

theorem outline?_appendReceiver (p : Program) (call : NodeId) (k : NodeKind) (s : Span)
    (x : NodeId) :
    (p.appendReceiver call k s).outline? x = (p.append call k s).outline? x := by
  apply outline?_modify
  intro n
  simp [Node.outline, NodeKind.outline_setReceiver]

theorem outline?_appendArgument (p : Program) (call : NodeId) (k : NodeKind) (s : Span)
    (x : NodeId) :
    (p.appendArgument call k s).outline? x = (p.append call k s).outline? x := by
  apply outline?_modify
  intro n
  simp [Node.outline, NodeKind.outline_addArgument]

theorem outline?_addUnit {p : Program} (u : CompilationUnit) {x : NodeId} (old : x ≠ p.nextId) :
    (p.addUnit u).outline? x = p.outline? x := by
  rw [outline?, get?_addUnit, if_neg old, outline?]

theorem span_eq (p : Program) (id : NodeId) :
    p.span id = ((p.outline? id).map (·.span)).getD .unknown := by
  rw [span, outline?]
  cases p.get? id <;> rfl

/-- What can be read off a payload's outline is read off the outline of the node. -/
theorem bind_kind?_eq {α : Type} {f : NodeKind → Option α} (plain : ∀ k : NodeKind, f k.outline = f k)
    (p : Program) (id : NodeId) :
    (p.kind? id).bind f = (p.outline? id).bind fun n => f n.kind := by
  rw [kind?, outline?, Option.bind_map, Option.bind_map]
  exact Option.bind_congr fun n _ => (plain n.kind).symm

theorem outline?_isSome {p : Program} {id : NodeId} : (p.outline? id).isSome ↔ p.has id := by
  rw [outline?, Option.isSome_map, ← not_iff_not, ← get?_eq_none_iff, Option.not_isSome_iff_eq_none]

/-! ### Copies -/

/-- The nodes of `p` from `offset` on start with a copy of `q`. -/
def Copied (q p : Program) (offset : Nat) : Prop :=
  ∀ ⦃id⦄, q.has id → p.outline? (id.shift offset) = (q.outline? id).map (·.rename (·.shift offset))

theorem copied_of_get? {p q : Program} {offset : Nat}
    (same : ∀ {id}, q.has id →
      p.get? (id.shift offset) = (q.get? id).map (·.rename (·.shift offset))) :
    q.Copied p offset := by
  intro id present
  rw [outline?, same present, outline?]
  simp [Function.comp_def, Node.outline_rename]

/-- Nodes that keep their outlines are a copy in place. -/
theorem copied_of_outline? {p q : Program}
    (same : ∀ {id}, q.has id → p.outline? id = q.outline? id) : q.Copied p 0 := by
  intro id present
  have still : ∀ n : Node, n.rename (·.shift 0) = n := by
    intro n
    simp [NodeId.shift_zero, Node.rename_id]
  rw [NodeId.shift_zero, same present]
  simp [still]

theorem copied_graft (p q : Program) : q.Copied (p.graft q) p.size :=
  copied_of_get? fun _ => get?_graft_right p q _

/-- A callable is described by its signature and by the types around it. -/
theorem describe_callable {p : Program} {d : NodeId} {decl : CallableDecl}
    (read : p.callable? d = some decl) :
    p.describe d = (p.enclosingType? d).elim decl.signature
      fun owner => p.qualifiedTypeName owner ++ "." ++ decl.signature := by
  obtain ⟨k, kind, isCallable⟩ := Option.bind_eq_some_iff.mp read
  obtain ⟨⟨k, parent, children, span⟩, node, rfl⟩ := Option.map_eq_some_iff.mp kind
  rw [describe, node]
  cases k with
  | callable d' =>
    cases isCallable
    cases p.enclosingType? d <;> rfl
  | _ => cases isCallable

namespace Copied

variable {p q : Program} {offset : Nat} {id : NodeId}

theorem has_shift (copied : q.Copied p offset) (present : q.has id) : p.has (id.shift offset) := by
  rw [← outline?_isSome, copied present, Option.isSome_map, outline?_isSome]
  exact present

theorem trans {r : Program} {inner : Nat} (first : r.Copied q inner) (second : q.Copied p offset) :
    r.Copied p (offset + inner) := by
  intro id present
  rw [← NodeId.shift_shift, second (first.has_shift present), first present]
  simp [Function.comp_def, Node.rename_rename, NodeId.shift_shift]

/-- As many nodes as the program has fit behind the offset. -/
theorem size_le (copied : q.Copied p offset) (present : q.has id) : offset + q.size ≤ p.size := by
  have small := has_iff.mp present
  have last : q.has ⟨q.size - 1⟩ := has_iff.mpr (Nat.sub_one_lt_of_lt small)
  have copy := has_iff.mp (copied.has_shift last)
  simp only [NodeId.shift] at copy
  omega

/-! ### Outlines read the same -/

theorem parent (copied : q.Copied p offset) (present : q.has id) :
    p.parent? (id.shift offset) = (q.parent? id).map (·.shift offset) := by
  have read : ∀ (r : Program) (x : NodeId), r.parent? x = (r.outline? x).bind (·.parent) := by
    intro r x
    rw [parent?, outline?, Option.bind_map]
    rfl
  rw [read, copied present, read]
  cases q.outline? id <;> rfl

theorem span (copied : q.Copied p offset) (present : q.has id) :
    p.span (id.shift offset) = q.span id := by
  rw [span_eq, copied present, span_eq]
  cases q.outline? id <;> rfl

theorem bind_kind? {α : Type} (copied : q.Copied p offset) {f : NodeKind → Option α}
    (plain : ∀ k : NodeKind, f k.outline = f k) (present : q.has id) :
    (p.kind? (id.shift offset)).bind f = (q.kind? id).bind f := by
  rw [bind_kind?_eq plain, copied present, kind?, outline?, Option.map_map, Option.bind_map,
    Option.bind_map]
  refine Option.bind_congr fun n _ => ?_
  exact (congrArg f (n.kind.rename_outline _)).trans (plain n.kind)

theorem label (copied : q.Copied p offset) (present : q.has id) :
    (p.kind? (id.shift offset)).map (·.label) = (q.kind? id).map (·.label) := by
  have read := copied.bind_kind? (f := fun k => some k.label)
    (fun k => congrArg some k.label_outline) present
  simpa [Option.map_eq_bind, Function.comp_def] using read

theorem typeDecl? (copied : q.Copied p offset) (present : q.has id) :
    p.typeDecl? (id.shift offset) = q.typeDecl? id :=
  copied.bind_kind? (by rintro (_ | _ | _) <;> rfl) present

theorem callable? (copied : q.Copied p offset) (present : q.has id) :
    p.callable? (id.shift offset) = q.callable? id :=
  copied.bind_kind? (by rintro (_ | _ | _) <;> rfl) present

theorem isCallable (copied : q.Copied p offset) (present : q.has id) :
    p.isCallable (id.shift offset) = q.isCallable id := by
  rw [Program.isCallable, Program.isCallable, copied.callable? present]

theorem simpleName? (copied : q.Copied p offset) (present : q.has id) :
    p.simpleName? (id.shift offset) = q.simpleName? id :=
  copied.bind_kind? (by rintro (_ | _ | _) <;> rfl) present

theorem isUnit (copied : q.Copied p offset) (present : q.has id) :
    p.isUnit (id.shift offset) = q.isUnit id := by
  have read := copied.bind_kind? (f := fun k => k.unit?.map fun _ => ())
    (by rintro (_ | _ | _) <;> rfl) present
  have isSome : ∀ kind : Option NodeKind, (kind.bind (·.unit?)).isSome =
      (kind.bind fun k => k.unit?.map fun _ => ()).isSome := by
    rintro (_ | k)
    · rfl
    · simp
  rw [Program.isUnit, Program.isUnit, isSome, isSome, read]

theorem signature? (copied : q.Copied p offset) (present : q.has id) :
    p.signature? (id.shift offset) = q.signature? id := by
  rw [Program.signature?, Program.signature?, copied.callable? present]

/-! ### Listings -/

theorem chain (copied : q.Copied p offset) (forest : q.Forest) (bound : Nat) {start : Option NodeId}
    (present : ∀ id, start = some id → q.has id) :
    p.chain bound (start.map (·.shift offset)) = (q.chain bound start).map (·.shift offset) := by
  induction bound generalizing start with
  | zero => rfl
  | succ bound ih =>
    cases start with
    | none => rfl
    | some id =>
      have next := ih fun r (above : q.parent? id = some r) => forest.has_of_child above
      simp only [Option.map_some, Program.chain, List.map_cons, List.cons.injEq, true_and]
      rw [copied.parent (present id rfl), next]

theorem ancestors (copied : q.Copied p offset) (forest : q.Forest) (present : q.has id) :
    p.ancestors (id.shift offset) = (q.ancestors id).map (·.shift offset) := by
  rw [Program.ancestors, copied.parent present,
    copied.chain forest _ fun r above => forest.has_of_child above, Program.ancestors]
  congr 1
  cases above : q.parent? id with
  | none =>
    cases p.size <;> cases q.size <;> rfl
  | some r =>
    have older := forest.parent_lt above
    have small := has_iff.mp present
    have room := copied.size_le present
    exact forest.chain_eq (by omega) (by omega)

theorem lineage (copied : q.Copied p offset) (forest : q.Forest) (present : q.has id) :
    p.lineage (id.shift offset) = (q.lineage id).map (·.shift offset) := by
  rw [Program.lineage, Program.lineage, copied.ancestors forest present, List.map_cons]

theorem preorder (forest : q.Forest)
    (children : ∀ {id}, q.has id →
      p.children (id.shift offset) = (q.children id).map (·.shift offset))
    (depth : Nat) (present : q.has id) :
    p.preorder depth (id.shift offset) = (q.preorder depth id).map (·.shift offset) := by
  induction depth generalizing id with
  | zero => rfl
  | succ depth ih =>
    have below : ∀ c ∈ q.children id,
        p.preorder depth (c.shift offset) = (q.preorder depth c).map (·.shift offset) := by
      intro c child
      exact ih (has_iff.mpr (forest.child_lt child).2)
    simp only [Program.preorder, List.map_cons, List.cons.injEq, true_and, children present,
      List.flatMap_map, List.map_flatMap]
    exact List.flatMap_congr below

theorem descendants (copied : q.Copied p offset) (forest : q.Forest)
    (children : ∀ {id}, q.has id →
      p.children (id.shift offset) = (q.children id).map (·.shift offset))
    (present : q.has id) :
    p.descendants (id.shift offset) = (q.descendants id).map (·.shift offset) := by
  have room := copied.size_le present
  have deep : q.preorder (p.size + 1) id = q.preorder (q.size + 1) id :=
    forest.preorder_eq (by omega) (by omega)
  rw [Program.descendants, preorder forest children _ present, deep, Program.descendants]

/-! ### Names -/

theorem find?_shift {nodes : List NodeId} {test test' : NodeId → Bool}
    (same : ∀ a ∈ nodes, test (a.shift offset) = test' a) :
    (nodes.map (·.shift offset)).find? test = (nodes.find? test').map (·.shift offset) := by
  rw [List.find?_map]
  exact congrArg (Option.map _) (List.find?_congr same)

theorem enclosingType? (copied : q.Copied p offset) (forest : q.Forest) (present : q.has id) :
    p.enclosingType? (id.shift offset) = (q.enclosingType? id).map (·.shift offset) := by
  rw [Program.enclosingType?, copied.ancestors forest present]
  apply find?_shift
  intro a above
  rw [Program.isType, Program.isType, copied.typeDecl? (forest.has_of_mem_ancestors present above)]

theorem nearestNamedAncestor? (copied : q.Copied p offset) (forest : q.Forest)
    (present : q.has id) :
    p.nearestNamedAncestor? (id.shift offset) =
      (q.nearestNamedAncestor? id).map (·.shift offset) := by
  rw [Program.nearestNamedAncestor?, copied.ancestors forest present]
  apply find?_shift
  intro a above
  rw [copied.simpleName? (forest.has_of_mem_ancestors present above)]

theorem ownerName? (copied : q.Copied p offset) (forest : q.Forest) (present : q.has id) :
    p.ownerName? (id.shift offset) = q.ownerName? id := by
  rw [Program.ownerName?, copied.nearestNamedAncestor? forest present, Program.ownerName?]
  cases named : q.nearestNamedAncestor? id with
  | none => rfl
  | some a =>
    have above := List.mem_of_find?_eq_some named
    exact copied.simpleName? (forest.has_of_mem_ancestors present above)

/-- What a unit says about its file reads the same in a copy. -/
theorem map_unit? {α : Type} (copied : q.Copied p offset) (forest : q.Forest) (present : q.has id)
    {f : CompilationUnit → α}
    (plain : ∀ u : CompilationUnit, f { u with origin := .source } = f u) :
    (p.unit? (id.shift offset)).map f = (q.unit? id).map f := by
  have found : p.unitOf? (id.shift offset) = (q.unitOf? id).map (·.shift offset) := by
    rw [unitOf?, copied.lineage forest present]
    apply find?_shift
    exact fun a line => copied.isUnit (forest.has_of_mem_lineage present line)
  rw [unit?, unit?, found]
  cases unit : q.unitOf? id with
  | none => rfl
  | some u =>
    have line := List.mem_of_find?_eq_some unit
    have read := copied.bind_kind? (f := fun k => k.unit?.map f)
      (by rintro (u | _ | _) <;> first | exact congrArg some (plain u) | rfl)
      (forest.has_of_mem_lineage present line)
    simpa [Option.map_bind, Function.comp_def] using read

theorem qualifiedTypeName (copied : q.Copied p offset) (forest : q.Forest) (present : q.has id) :
    p.qualifiedTypeName (id.shift offset) = q.qualifiedTypeName id := by
  have names : (p.lineage (id.shift offset)).filterMap (fun a => (p.typeDecl? a).map (·.name)) =
      (q.lineage id).filterMap fun a => (q.typeDecl? a).map (·.name) := by
    rw [copied.lineage forest present, List.filterMap_map]
    apply List.filterMap_congr
    intro a line
    rw [Function.comp_apply, copied.typeDecl? (forest.has_of_mem_lineage present line)]
  have packages : (p.unit? (id.shift offset)).bind (·.package) = (q.unit? id).bind (·.package) := by
    have joined : ∀ unit : Option CompilationUnit,
        unit.bind (·.package) = (unit.map (·.package)).join := by
      rintro (_ | u) <;> rfl
    rw [joined, joined, copied.map_unit? forest present fun _ => rfl]
  rw [Program.qualifiedTypeName, Program.qualifiedTypeName, names, packages]

theorem describe (copied : q.Copied p offset) (forest : q.Forest) (present : q.has id)
    (callable : q.isCallable id) : p.describe (id.shift offset) = q.describe id := by
  obtain ⟨decl, read⟩ := Option.isSome_iff_exists.mp callable
  rw [describe_callable read, describe_callable ((copied.callable? present).trans read),
    copied.enclosingType? forest present]
  cases typed : q.enclosingType? id with
  | none => rfl
  | some owner =>
    have above := List.mem_of_find?_eq_some typed
    have named := copied.qualifiedTypeName forest (forest.has_of_mem_ancestors present above)
    simp only [Option.map_some, Option.elim_some, named]

/-! ### Copies in place -/

section

variable (copied : q.Copied p 0) (present : q.has id)

include copied present

theorem kept_has : p.has id := by
  have shifted := copied.has_shift present
  rwa [NodeId.shift_zero] at shifted

theorem kept_parent : p.parent? id = q.parent? id := by
  have shifted := copied.parent present
  simpa [NodeId.shift_zero] using shifted

theorem kept_span : p.span id = q.span id := by
  have shifted := copied.span present
  rwa [NodeId.shift_zero] at shifted

theorem kept_kind {α : Type} {f : NodeKind → Option α}
    (plain : ∀ k : NodeKind, f k.outline = f k) : (p.kind? id).bind f = (q.kind? id).bind f := by
  have read := copied.bind_kind? plain present
  rwa [NodeId.shift_zero] at read

variable (forest : q.Forest)

include forest

theorem kept_ancestors : p.ancestors id = q.ancestors id := by
  have shifted := copied.ancestors forest present
  simpa [NodeId.shift_zero] using shifted

theorem kept_lineage : p.lineage id = q.lineage id := by
  rw [Program.lineage, copied.kept_ancestors present forest, Program.lineage]

end

end Copied

end Program

end JavaCallGraph
