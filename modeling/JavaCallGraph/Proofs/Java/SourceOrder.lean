import JavaCallGraph.Proofs.Java.Arrangement
import JavaCallGraph.Proofs.Java.Placement
import JavaCallGraph.Proofs.Program.Preorder

/-!
Lowering numbers nodes in the order of the text.

While sketches are planted, the next node goes below the last one or below a node on the way up from
there. So a file is numbered in pre-order, whatever its syntax tree looks like, and what stands in a
node has the numbers behind it. If the tree is in order then so are the jobs of every plan: the nodes
lie in their parents too, and a node starts no earlier than the nodes before it.
-/

namespace JavaCallGraph

/-- The bytes of the one span are among those of the other. -/
def Span.Covers (outer inner : Span) : Prop :=
  outer.startByte ≤ inner.startByte ∧ inner.endByte ≤ outer.endByte

namespace Java

/-! ### The last node and what is above it -/

/-- A node that, in a program numbered in pre-order, has the last node below it or is the last one:
the next one may go below it. -/
structure Open (p : Program) (a : NodeId) : Prop where
  grown : p.Grown
  ordered : p.Preordered
  present : p.has a
  line : a ∈ p.lineage ⟨p.size - 1⟩

namespace Open

variable {p : Program} {a b : NodeId} {attach : Attach}

theorem append (isOpen : Open p attach.parent) (k : NodeKind) (s : Span) :
    Open (attach.append k s p) p.nextId := by
  have forest := isOpen.grown.forest
  have copied := attach.copied_append k s p
  have last : p.has ⟨p.size - 1⟩ :=
    Program.has_iff.mpr (Nat.sub_one_lt_of_lt (Program.has_iff.mp isOpen.present))
  refine ⟨attach.grown_append k s isOpen.grown isOpen.present, ?_, attach.has_new k s p, ?_⟩
  · intro c q above
    by_cases new : c = p.nextId
    · subst new
      obtain rfl : attach.parent = q :=
        Option.some.inj ((attach.parent?_new k s p).symm.trans above)
      change attach.parent ∈ (attach.append k s p).lineage ⟨p.size - 1⟩
      rw [copied.kept_lineage last forest]
      exact isOpen.line
    · have old : p.has c := by
        have := Program.has_iff.mp (Program.has_of_parent? above)
        rw [Attach.size_append] at this
        have apart : c.index ≠ p.size := fun same => new (congrArg NodeId.mk same)
        exact Program.has_iff.mpr (by omega)
      have before : p.has ⟨c.index - 1⟩ := by
        have := Program.has_iff.mp old
        exact Program.has_iff.mpr (Nat.lt_of_le_of_lt (Nat.sub_le _ 1) this)
      rw [copied.kept_parent old] at above
      rw [copied.kept_lineage before forest]
      exact isOpen.ordered above
  · rw [Attach.size_append]
    exact List.mem_cons_self

/-- When a node is done, its parent is next. -/
theorem parent (isOpen : Open p b) (above : p.parent? b = some a) : Open p a where
  grown := isOpen.grown
  ordered := isOpen.ordered
  present := isOpen.grown.forest.has_of_child above
  line :=
    isOpen.grown.forest.lineage_trans (isOpen.grown.forest.parent_mem_lineage above) isOpen.line

mutual

/-- Planting a sketch keeps the numbers in pre-order, and comes back to where it started. -/
theorem plant {p : Program} {a : NodeId} (isOpen : Open p a) :
    (s : Sketch) → s.Fresh → Open (s.plant a p) a
  | .node role kind origin parts, .node _ fresh => by
    rw [Sketch.plant]
    have attached : Open p (role.attach a).parent := by rwa [Role.parent_attach]
    have node := attached.append kind origin.extent.span
    have above := (role.attach a).parent?_new kind origin.extent.span p
    rw [Role.parent_attach, ← (Sketch.copied_plantAll node.present fresh).kept_parent node.present]
      at above
    exact (plantAll node parts fresh).parent above

theorem plantAll {p : Program} {a : NodeId} (isOpen : Open p a) :
    (sketches : List Sketch) → (∀ s ∈ sketches, s.Fresh) → Open (Sketch.plantAll a p sketches) a
  | [], _ => by
    rw [Sketch.plantAll]
    exact isOpen
  | s :: rest, fresh => by
    obtain ⟨here, later⟩ := List.forall_mem_cons.mp fresh
    rw [Sketch.plantAll]
    exact plantAll (plant isOpen s here) rest later

end

end Open

/-! ### Nodes in the text -/

/-- Every node of a program starts no earlier than the nodes before it, the last one not behind
`reached`, and lies inside its parent unless that is the first node. -/
structure Ascending (p : Program) (reached : Nat) : Prop where
  sorted : ∀ ⦃a b⦄, a.index ≤ b.index → p.has b → (p.span a).startByte ≤ (p.span b).startByte
  start_le : ∀ ⦃a⦄, p.has a → (p.span a).startByte ≤ reached
  nested : ∀ ⦃c q⦄, p.parent? c = some q → q = ⟨0⟩ ∨ (p.span q).Covers (p.span c)

/-- What lies between two bytes may stand below a node. -/
def Room (p : Program) (a : NodeId) (lo hi : Nat) : Prop :=
  a = ⟨0⟩ ∨ (p.span a).startByte ≤ lo ∧ hi ≤ (p.span a).endByte

theorem Room.mono {p : Program} {a : NodeId} {lo hi lo' hi' : Nat} (room : Room p a lo hi)
    (low : lo ≤ lo') (high : hi' ≤ hi) : Room p a lo' hi' :=
  room.imp_right fun bounds => ⟨Nat.le_trans bounds.1 low, Nat.le_trans high bounds.2⟩

theorem Room.keep {p q : Program} {a : NodeId} {lo hi : Nat} (room : Room p a lo hi)
    (copied : p.Copied q 0) (present : p.has a) : Room q a lo hi := by
  rwa [Room, copied.kept_span present]

/-- Sketches lie between two bytes and none starts before one that is planted earlier. A sketch
without parts may lie around those that follow, as the fields of a record do. -/
def AscendBetween (lo hi : Nat) : List Sketch → Prop
  | [] => lo ≤ hi
  | .node _ _ origin parts :: rest =>
    lo ≤ origin.extent.start.byte ∧ origin.extent.stop.byte ≤ hi ∧
      AscendBetween origin.extent.start.byte origin.extent.stop.byte parts ∧
        AscendBetween (if parts.isEmpty then origin.extent.start.byte else origin.extent.stop.byte)
          hi rest

namespace AscendBetween

theorem le {lo hi : Nat} : {sketches : List Sketch} → AscendBetween lo hi sketches → lo ≤ hi
  | [], ordered => by rwa [AscendBetween] at ordered
  | .node _ _ _ _ :: _, ordered => by
    rw [AscendBetween] at ordered
    obtain ⟨low, high, inside, -⟩ := ordered
    exact Nat.le_trans low (Nat.le_trans inside.le high)

variable {lo mid hi : Nat} {sketches later : List Sketch}

theorem mono (ordered : AscendBetween mid hi sketches) (low : lo ≤ mid) :
    AscendBetween lo hi sketches := by
  cases sketches with
  | nil =>
    rw [AscendBetween] at ordered ⊢
    exact Nat.le_trans low ordered
  | cons s rest =>
    obtain ⟨role, kind, origin, parts⟩ := s
    rw [AscendBetween] at ordered ⊢
    exact ⟨Nat.le_trans low ordered.1, ordered.2⟩

theorem append (ordered : AscendBetween lo mid sketches) (behind : AscendBetween mid hi later) :
    AscendBetween lo hi (sketches ++ later) := by
  induction sketches generalizing lo with
  | nil =>
    rw [AscendBetween] at ordered
    exact behind.mono ordered
  | cons s rest ih =>
    obtain ⟨role, kind, origin, parts⟩ := s
    rw [AscendBetween] at ordered
    rw [List.cons_append, AscendBetween]
    obtain ⟨low, high, inside, next⟩ := ordered
    exact ⟨low, Nat.le_trans high behind.le, inside, ih next⟩

/-- One sketch with parts in order. -/
theorem singleton {role : Role} {kind : NodeKind} {n : Located} {parts : List Sketch}
    (inside : AscendBetween n.extent.start.byte n.extent.stop.byte parts) :
    AscendBetween n.extent.start.byte n.extent.stop.byte [.node role kind n parts] := by
  rw [AscendBetween, AscendBetween]
  refine ⟨Nat.le_refl _, Nat.le_refl _, inside, ?_⟩
  split
  · exact inside.le
  · exact Nat.le_refl _

end AscendBetween

namespace Ascending

variable {p : Program} {lo hi : Nat} {attach : Attach}

theorem mono (ascending : Ascending p lo) (later : lo ≤ hi) : Ascending p hi where
  sorted := ascending.sorted
  start_le := fun _ present => Nat.le_trans (ascending.start_le present) later
  nested := ascending.nested

theorem append (ascending : Ascending p lo) (isOpen : Open p attach.parent) {extent : Extent}
    (low : lo ≤ extent.start.byte)
    (room : Room p attach.parent extent.start.byte extent.stop.byte) (k : NodeKind) :
    Ascending (attach.append k extent.span p) extent.start.byte := by
  have copied := attach.copied_append k extent.span p
  have new := attach.span_new k extent.span p
  have old : ∀ {a : NodeId}, (attach.append k extent.span p).has a → a = p.nextId ∨ p.has a := by
    intro a present
    rw [Program.has_iff, Attach.size_append] at present
    rcases Nat.lt_succ_iff_lt_or_eq.mp present with early | same
    · exact .inr (Program.has_iff.mpr early)
    · exact .inl (congrArg NodeId.mk same)
  have start_le : ∀ {a : NodeId}, (attach.append k extent.span p).has a →
      ((attach.append k extent.span p).span a).startByte ≤ extent.start.byte := by
    intro a present
    rcases old present with rfl | early
    · rw [new]
      exact Nat.le_refl _
    · rw [copied.kept_span early]
      exact Nat.le_trans (ascending.start_le early) low
  refine ⟨fun a b before present => ?_, fun a present => start_le present, fun c q above => ?_⟩
  · rcases old present with rfl | early
    · rw [new]
      exact start_le (Program.has_iff.mpr (Nat.lt_of_le_of_lt before (Program.has_iff.mp present)))
    · have earlier : p.has a :=
        Program.has_iff.mpr (Nat.lt_of_le_of_lt before (Program.has_iff.mp early))
      rw [copied.kept_span early, copied.kept_span earlier]
      exact ascending.sorted before early
  · rcases old (Program.has_of_parent? above) with rfl | early
    · obtain rfl : attach.parent = q :=
        Option.some.inj ((attach.parent?_new k extent.span p).symm.trans above)
      rw [new, copied.kept_span isOpen.present]
      exact room
    · rw [copied.kept_parent early] at above
      rw [copied.kept_span early, copied.kept_span (isOpen.grown.forest.has_of_child above)]
      exact ascending.nested above

/-- Planting sketches goes on from where they start to where they end. -/
theorem plantAll {p : Program} {lo hi : Nat} {a : NodeId} (ascending : Ascending p lo)
    (isOpen : Open p a) : (sketches : List Sketch) → (∀ s ∈ sketches, s.Fresh) → Room p a lo hi →
      AscendBetween lo hi sketches → Ascending (Sketch.plantAll a p sketches) hi
  | [], _, _, ordered => by
    rw [AscendBetween] at ordered
    rw [Sketch.plantAll]
    exact ascending.mono ordered
  | .node role kind origin parts :: rest, fresh, room, ordered => by
    rw [AscendBetween] at ordered
    obtain ⟨low, high, inside, later⟩ := ordered
    obtain ⟨here, fresh⟩ := List.forall_mem_cons.mp fresh
    have step := isOpen.plant _ here
    cases here with
    | node _ below =>
    let placed := (role.attach a).append kind origin.extent.span p
    have attached : Open p (role.attach a).parent := by rwa [Role.parent_attach]
    have node := attached.append kind origin.extent.span
    have there : Room placed p.nextId origin.extent.start.byte origin.extent.stop.byte := by
      rw [Room, Attach.span_new]
      exact .inr ⟨Nat.le_refl _, Nat.le_refl _⟩
    have entered : Ascending placed origin.extent.start.byte :=
      ascending.append attached low (by rw [Role.parent_attach]; exact room.mono low high) kind
    have copied : p.Copied (Sketch.plantAll p.nextId placed parts) 0 :=
      ((role.attach a).copied_append kind origin.extent.span p).trans
        (Sketch.copied_plantAll node.present below)
    rw [Sketch.plantAll, Sketch.plant]
    rw [Sketch.plant] at step
    -- without parts the node itself is the last one so far
    have reached : Ascending (Sketch.plantAll p.nextId placed parts)
        (if parts.isEmpty then origin.extent.start.byte else origin.extent.stop.byte) := by
      cases parts with
      | nil =>
        rw [Sketch.plantAll]
        exact entered
      | cons s more => exact plantAll entered node (s :: more) below there inside
    have advanced : lo ≤
        (if parts.isEmpty then origin.extent.start.byte else origin.extent.stop.byte) := by
      split
      · exact low
      · exact Nat.le_trans low inside.le
    exact plantAll reached step rest fresh
      ((room.keep copied isOpen.present).mono advanced (Nat.le_refl hi)) later

end Ascending

/-! ### Plans in order -/

namespace Located.InOrder

variable {source : List Char} {n : Located} {field : String} {b : Bool} {role : Role}

end Located.InOrder

namespace Job

variable {source : List Char}

end Job

/-! ### Files -/

section

variable (path : String) (origin : UnitOrigin) (contentHash text : String) (root : Syntax)

/-- The unit of a file that is lowered alone. -/
theorem open_addUnit (u : CompilationUnit) : Open (Program.empty.addUnit u) ⟨0⟩ := by
  refine ⟨.addUnit u .empty, fun c q above => ?_, rfl, List.mem_cons_self⟩
  rw [Program.parent?_addUnit] at above
  cases above

theorem open_lowerSource : Open (lowerSource .empty path origin contentHash text root) ⟨0⟩ := by
  rw [lowerSource_eq]
  exact (open_addUnit _).plantAll _ fresh_fileSketches

end

end Java

namespace Program

theorem children_graft (p q : Program) (id : NodeId) :
    (p.graft q).children (id.shift p.size) = (q.children id).map (·.shift p.size) := by
  rw [children, children, get?_graft_right]
  cases q.get? id <;> rfl

/-- A graft keeps the subtrees of what is grafted. -/
theorem descendants_graft (p : Program) {q : Program} (forest : q.Forest) {id : NodeId}
    (present : q.has id) :
    (p.graft q).descendants (id.shift p.size) = (q.descendants id).map (·.shift p.size) :=
  (copied_graft p q).descendants forest (fun {x} _ => children_graft p q x) present

theorem map_shift_range' (offset start length : Nat) :
    ((List.range' start length).map NodeId.mk).map (·.shift offset) =
      (List.range' (offset + start) length).map NodeId.mk := by
  rw [List.map_map, ← List.map_add_range', List.map_map]
  rfl

/-- Below the new unit stand exactly the new nodes. -/
theorem descendants_lowerSource (p : Program) (path : String) (origin : UnitOrigin)
    (contentHash text : String) (root : Java.Syntax) :
    let q := Java.lowerSource p path origin contentHash text root
    q.descendants p.nextId = (List.range' p.size (q.size - p.size)).map NodeId.mk := by
  intro q
  let alone := Java.lowerSource .empty path origin contentHash text root
  have grafted : q = p.graft alone := Java.lowerSource_graft p path origin contentHash text root
  have isOpen : Java.Open alone ⟨0⟩ := Java.open_lowerSource path origin contentHash text root
  have all : alone.descendants ⟨0⟩ = alone.ids :=
    isOpen.ordered.descendants_unit isOpen.grown.forest Java.units_lowerSource rfl
  have moved := descendants_graft p isOpen.grown.forest isOpen.present
  rw [all, ids, List.range_eq_range', map_shift_range'] at moved
  rw [grafted, size_graft, Nat.add_sub_cancel_left]
  exact moved

end Program

/-! ### Operands in parentheses -/

namespace Source

/-- A record with a call that has its receiver and an argument in parentheses and, behind a comment,
an object with a member for another argument. -/
def wrapped : String := "record R(int a) { T t = (o).f(((g(1))), /**/ new T(2) { int k; }); }"

/-- The tree of the text, with its comment and some of its tokens. -/
def wrappedTree : Java.Syntax :=
  .node "program" none true ⟨⟨0, 0⟩, ⟨0, 68⟩⟩
    [.node "record_declaration" none true ⟨⟨0, 0⟩, ⟨0, 68⟩⟩
      [.node "record" none false ⟨⟨0, 0⟩, ⟨0, 6⟩⟩ [],
        .node "identifier" (some "name") true ⟨⟨0, 7⟩, ⟨0, 8⟩⟩ [],
        .node "formal_parameters" (some "parameters") true ⟨⟨0, 8⟩, ⟨0, 15⟩⟩
          [.node "formal_parameter" none true ⟨⟨0, 9⟩, ⟨0, 14⟩⟩
            [.node "integral_type" (some "type") true ⟨⟨0, 9⟩, ⟨0, 12⟩⟩ [],
              .node "identifier" (some "name") true ⟨⟨0, 13⟩, ⟨0, 14⟩⟩ []]],
        .node "class_body" (some "body") true ⟨⟨0, 16⟩, ⟨0, 68⟩⟩
          [.node "field_declaration" none true ⟨⟨0, 18⟩, ⟨0, 66⟩⟩
            [.node "type_identifier" (some "type") true ⟨⟨0, 18⟩, ⟨0, 19⟩⟩ [],
              .node "variable_declarator" (some "declarator") true ⟨⟨0, 20⟩, ⟨0, 65⟩⟩
                [.node "identifier" (some "name") true ⟨⟨0, 20⟩, ⟨0, 21⟩⟩ [],
                  .node "=" none false ⟨⟨0, 22⟩, ⟨0, 23⟩⟩ [],
                  .node "method_invocation" (some "value") true ⟨⟨0, 24⟩, ⟨0, 65⟩⟩
                    [.node "parenthesized_expression" (some "object") true ⟨⟨0, 24⟩, ⟨0, 27⟩⟩
                      [.node "(" none false ⟨⟨0, 24⟩, ⟨0, 25⟩⟩ [],
                        .node "identifier" none true ⟨⟨0, 25⟩, ⟨0, 26⟩⟩ [],
                        .node ")" none false ⟨⟨0, 26⟩, ⟨0, 27⟩⟩ []],
                      .node "identifier" (some "name") true ⟨⟨0, 28⟩, ⟨0, 29⟩⟩ [],
                      .node "argument_list" (some "arguments") true ⟨⟨0, 29⟩, ⟨0, 65⟩⟩
                        [.node "parenthesized_expression" none true ⟨⟨0, 30⟩, ⟨0, 38⟩⟩
                          [.node "parenthesized_expression" none true ⟨⟨0, 31⟩, ⟨0, 37⟩⟩
                            [.node "method_invocation" none true ⟨⟨0, 32⟩, ⟨0, 36⟩⟩
                              [.node "identifier" (some "name") true ⟨⟨0, 32⟩, ⟨0, 33⟩⟩ [],
                                .node "argument_list" (some "arguments") true ⟨⟨0, 33⟩, ⟨0, 36⟩⟩
                                  [.node "decimal_integer_literal" none true ⟨⟨0, 34⟩, ⟨0, 35⟩⟩ []]]]],
                          .node "block_comment" none true ⟨⟨0, 40⟩, ⟨0, 44⟩⟩ [],
                          .node "object_creation_expression" none true ⟨⟨0, 45⟩, ⟨0, 64⟩⟩
                            [.node "type_identifier" (some "type") true ⟨⟨0, 49⟩, ⟨0, 50⟩⟩ [],
                              .node "argument_list" (some "arguments") true ⟨⟨0, 50⟩, ⟨0, 53⟩⟩
                                [.node "decimal_integer_literal" none true ⟨⟨0, 51⟩, ⟨0, 52⟩⟩ []],
                              .node "class_body" none true ⟨⟨0, 54⟩, ⟨0, 64⟩⟩
                                [.node "field_declaration" none true ⟨⟨0, 56⟩, ⟨0, 62⟩⟩
                                  [.node "integral_type" (some "type") true ⟨⟨0, 56⟩, ⟨0, 59⟩⟩ [],
                                    .node "variable_declarator" (some "declarator") true
                                      ⟨⟨0, 60⟩, ⟨0, 61⟩⟩
                                      [.node "identifier" (some "name") true
                                        ⟨⟨0, 60⟩, ⟨0, 61⟩⟩ []]]]]]]]]]]]

end Source

namespace Program

/-- The record behind another unit. -/
def wrapped : Program :=
  let unit := empty
    |>.addUnit { path := "B.java" }
    |>.addUnit { path := "R.java" }
  let call := unit
    |>.append ⟨1⟩ (.type { kind := .recordType, name := "R" }) ⟨1, 1, 0, 68⟩
    |>.append ⟨2⟩ (.field { typeName := "int", names := ["a"] }) ⟨1, 1, 0, 68⟩
    |>.append ⟨2⟩ (.field { typeName := "T", names := ["t"] }) ⟨1, 1, 18, 66⟩
    |>.append ⟨4⟩ (.methodCall { name := "f" }) ⟨1, 1, 24, 65⟩
  call
    |>.appendReceiver ⟨5⟩ (.expression (.name "o")) ⟨1, 1, 25, 26⟩
    |>.appendArgument ⟨5⟩ (.methodCall { name := "g" }) ⟨1, 1, 32, 36⟩
    |>.appendArgument ⟨7⟩ (.expression (.literal "int")) ⟨1, 1, 34, 35⟩
    |>.appendArgument ⟨5⟩ (.objectCreation { typeName := "T" }) ⟨1, 1, 45, 64⟩
    |>.appendArgument ⟨9⟩ (.expression (.literal "int")) ⟨1, 1, 51, 52⟩
    |>.append ⟨9⟩ (.field { typeName := "int", names := ["k"] }) ⟨1, 1, 56, 62⟩

theorem lowerSource_wrapped :
    Java.lowerSource (empty.addUnit { path := "B.java" }) "R.java" .source "" Source.wrapped
      Source.wrappedTree = wrapped :=
  Java.lowerSource_eq_of_runFor 20 (by cbv)

end Program

end JavaCallGraph
