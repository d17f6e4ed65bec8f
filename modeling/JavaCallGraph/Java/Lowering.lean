import JavaCallGraph.Java.Syntax
import JavaCallGraph.Program.Ancestry
import JavaCallGraph.Text.Blank
import JavaCallGraph.Walk.Agenda

/-!
From syntax trees to programs.

Declarations, statements and calls become nodes; all else is passed over, and what stands in it
goes to the node around it. Receivers, arguments, the objects of field accesses and the operands of
casts become nodes whatever they are.

Lowering works off a stack of tasks. A task enters at most one node with what belongs to it and puts
the tasks for what stands inside on the stack, the first of them on top.
-/

namespace JavaCallGraph.Java

/-! ### Literals -/

def integerKinds : List String :=
  ["decimal_integer_literal", "hex_integer_literal", "octal_integer_literal",
    "binary_integer_literal"]

def floatKinds : List String := ["decimal_floating_point_literal", "hex_floating_point_literal"]

/-- The types of the other literals. -/
def literalTypes : List (String × String) :=
  [("string_literal", "String"), ("text_block", "String"), ("character_literal", "char"),
    ("true", "boolean"), ("false", "boolean")]

/-! ### What is read off a node -/

namespace Located

variable (source : List Char) (n : Located)

/-- The text of a node; empty where there is none. -/
def text : String := (n.extent.slice? source).getD ""

def fieldText? (field : String) : Option String := (n.child? field).map (text source)

def fieldText (field : String) : String := (n.fieldText? source field).getD ""

/-- The words of the modifiers. -/
def modifiers : List String :=
  match n.namedChildren.find? (·.kind == "modifiers") with
  | some m => Text.words (m.text source)
  | none => []

def isStatic : Bool := (n.modifiers source).contains "static"

/-- The texts of the types in a clause. -/
def typeList : List String :=
  ((n.namedChildren.filter (·.kind == "type_list")).flatMap namedChildren).map (text source)

def typeKind : TypeKind :=
  if n.kind = "interface_declaration" ∨ n.kind = "annotation_type_declaration" then .interfaceType
  else if n.kind = "enum_declaration" then .enumType
  else if n.kind = "record_declaration" then .recordType
  else .classType

def typeDecl : TypeDecl where
  kind := n.typeKind
  name := n.fieldText source "name"
  superclass := ((n.child? "superclass").bind (·.namedChildren.head?)).map (text source)
  interfaces :=
    (n.namedChildren.filter fun c =>
      c.kind == "super_interfaces" || c.kind == "extends_interfaces").flatMap (typeList source)

/-- A parameter out of a list; receiver parameters are none. -/
def parameter? : Option Parameter :=
  if n.kind = "formal_parameter" then
    some { typeName := n.fieldText source "type", name := n.fieldText source "name" }
  else if n.kind = "spread_parameter" then
    let parts := n.namedChildren.filter (·.kind != "modifiers")
    let typeName := match parts.head? with
      | some type => type.text source ++ "..."
      | none => ""
    let declarator? := parts.find? (·.kind == "variable_declarator")
    some { typeName, name := (declarator?.bind (·.fieldText? source "name")).getD "" }
  else none

def parameters : List Parameter := n.namedChildren.filterMap (parameter? source)

/-- The parameters in the list of a node, or none. -/
def listedParameters (list? : Option Located) : List Parameter :=
  match list? with
  | some list => list.parameters source
  | none => []

/-- The parameters of a callable. A constructor without a list takes the components of its record. -/
def callableParameters : List Parameter :=
  match n.child? "parameters" with
  | some list => list.parameters source
  | none => listedParameters source
      ((n.parent?.bind (·.parent?)).bind (·.child? "parameters"))

def callableDecl : CallableDecl :=
  let kind := if n.kind = "method_declaration" then .method else .constructor
  { kind
    name := n.fieldText source "name"
    parameters := n.callableParameters source
    returnType := match kind with
      | .method => n.fieldText? source "type"
      | .constructor => none
    isStatic := n.isStatic source }

/-- The fields that the components of a record become. -/
def components : List FieldDecl :=
  if n.typeKind = .recordType then
    (listedParameters source (n.child? "parameters")).map fun c =>
      { typeName := c.typeName, names := [c.name] }
  else []

def declarators : List Located := n.childrenIn "declarator"

def declaredNames : List String := n.declarators.filterMap (·.fieldText? source "name")

def fieldDecl (inInterface : Bool) : FieldDecl where
  typeName := n.fieldText source "type"
  names := n.declaredNames source
  isStatic := n.kind == "constant_declaration" || inInterface || n.isStatic source

def localVariable : Statement :=
  .localVariable (n.fieldText source "type") (n.declaredNames source)

def constructorInvocation : ConstructorInvocation where
  isThis := (n.child? "constructor").any (·.kind == "this")

def objectCreation : ObjectCreation where
  typeName := n.fieldText source "type"

/-- Whether a node is `T.this`. -/
def isQualifiedThis : Bool :=
  n.kind == "field_access" && (n.child? "field").any (·.kind == "this")

/-- Whether `super` stands besides the object of a method call, as in `T.super.m()`. -/
def isQualifiedSuper : Bool :=
  (n.node.children.eraseP (·.field == some "object")).any fun c =>
    c.isNamed && !c.isComment && c.kind == "super"

/-- The scope of a method call before its receiver is known, and its receiver if it has one. -/
def callScope : CallScope × Option Located :=
  match n.child? "object" with
  | none => (.implicit, none)
  | some object =>
    bif n.isQualifiedSuper then (.qualifiedSuper (object.text source), none)
    else if object.kind = "this" then (.this, none)
    else if object.kind = "super" then (.super, none)
    else bif object.isQualifiedThis then
      (.qualifiedThis (object.fieldText source "object"), none)
    else (.implicit, some object)

def methodCall : MethodCall where
  name := n.fieldText source "name"
  scope := (n.callScope source).1

def receiver? : Option Located := (n.callScope source).2

theorem child?_of_receiver? {source : List Char} {n r : Located}
    (found : n.receiver? source = some r) : n.child? "object" = some r := by
  unfold receiver? callScope at found
  split at found
  · cases found
  · next object first =>
    simp only [Bool.cond_eq_ite] at found
    split at found
    · cases found
    split at found
    · cases found
    split at found
    · cases found
    split at found
    · cases found
    · cases found
      exact first

/-- The bodies of the class without a name that an object is of. -/
def classBodies : List Located := n.namedChildren.filter (·.kind == "class_body")

/-- The type of a literal. -/
def literalType? : Option String :=
  let ends := fun letters : List Char => letters.contains ((n.text source).toList.getLast?.getD ' ')
  bif integerKinds.contains n.kind then some (bif ends ['l', 'L'] then "long" else "int")
  else bif floatKinds.contains n.kind then some (bif ends ['f', 'F'] then "float" else "double")
  else literalTypes.lookup n.kind

end Located

/-- The kinds of statements that become nodes. -/
def statementKinds : List String :=
  ["expression_statement", "return_statement", "if_statement", "while_statement", "for_statement",
    "enhanced_for_statement", "do_statement", "try_statement", "try_with_resources_statement",
    "throw_statement", "synchronized_statement", "labeled_statement", "assert_statement",
    "yield_statement", "switch_statement"]

/-- What becomes of a node where declarations, statements and calls are kept. -/
inductive Treatment where
  /-- It is left out with all that stands in it. -/
  | skipped
  | type
  | callable
  | field
  /-- Only the arguments count. -/
  | enumConstant
  | initializer (isStatic : Bool)
  | localVariable
  | constructorInvocation
  | call
  | statement
  /-- What stands in it counts in its place. -/
  | passed
  deriving DecidableEq, Repr

def treatments : List (String × Treatment) :=
  [("package_declaration", .skipped), ("import_declaration", .skipped),
    ("class_declaration", .type), ("interface_declaration", .type), ("enum_declaration", .type),
    ("record_declaration", .type), ("annotation_type_declaration", .type),
    ("method_declaration", .callable), ("constructor_declaration", .callable),
    ("compact_constructor_declaration", .callable), ("field_declaration", .field),
    ("constant_declaration", .field), ("enum_constant", .enumConstant),
    ("static_initializer", .initializer true), ("local_variable_declaration", .localVariable),
    ("explicit_constructor_invocation", .constructorInvocation), ("method_invocation", .call),
    ("object_creation_expression", .call)] ++ statementKinds.map (·, .statement)

/-- A block among the members of a class is an initializer. -/
def Located.treatment (n : Located) : Treatment :=
  if n.kind = "block" then
    bif n.parent?.any fun p => p.kind == "class_body" || p.kind == "enum_body_declarations" then
      .initializer false
    else .passed
  else (treatments.lookup n.kind).getD .passed

/-- The forms of an expression. -/
inductive Shape where
  | parentheses
  | methodInvocation
  | objectCreation
  | name
  | this
  | qualifiedThis
  | fieldAccess
  | cast
  | literal (typeName : String)
  | other
  deriving DecidableEq, Repr

def shapes : List (String × Shape) :=
  [("parenthesized_expression", .parentheses), ("method_invocation", .methodInvocation),
    ("object_creation_expression", .objectCreation), ("identifier", .name), ("this", .this),
    ("cast_expression", .cast)]

def Located.shape (source : List Char) (n : Located) : Shape :=
  if n.kind = "field_access" then bif n.isQualifiedThis then .qualifiedThis else .fieldAccess
  else match shapes.lookup n.kind with
    | some shape => shape
    | none =>
      match n.literalType? source with
      | some typeName => .literal typeName
      | none => .other

/-! ### Tasks -/

/-- Where the node of an expression goes. -/
inductive Attach where
  | child (parent : NodeId)
  | argument (call : NodeId)
  | receiver (call : NodeId)
  deriving DecidableEq, Repr

/-- Append a node there. -/
def Attach.append (kind : NodeKind) (span : Span) (p : Program) : Attach → Program
  | child parent => p.append parent kind span
  | argument call => p.appendArgument call kind span
  | receiver call => p.appendReceiver call kind span

inductive Task where
  /-- Keep declarations, statements and calls, below a node. -/
  | lower (node : Located) (parent : NodeId)
  /-- Keep the node as an expression, whatever its kind. -/
  | expression (node : Located) (attach : Attach)

def Task.node : Task → Located
  | lower node _ | expression node _ => node

/-- The rank of a task: what it schedules stands inside its node. -/
noncomputable def Task.rank (t : Task) : Nat := sizeOf t.node.node

structure Lowerer where
  /-- The text that the nodes are of. -/
  source : List Char
  program : Program
  /-- The tasks to do, the next one first. -/
  work : List Task := []

namespace Lowerer

variable (l : Lowerer)

def push (task : Task) : Lowerer := { l with work := task :: l.work }

/-- Schedule what stands in a node, to be lowered below another. -/
def scheduleChildren (node : Located) (parent : NodeId) : Lowerer :=
  node.namedChildren.reverse.foldl (fun l c => l.push (.lower c parent)) l

def scheduleArguments (node : Located) (call : NodeId) : Lowerer :=
  match node.child? "arguments" with
  | some list =>
    list.namedChildren.reverse.foldl (fun l a => l.push (.expression a (.argument call))) l
  | none => l

/-- Schedule what stands in the body of a node. -/
def scheduleBody (node : Located) (owner : NodeId) : Lowerer :=
  match node.child? "body" with
  | some body => l.scheduleChildren body owner
  | none => l

/-- Schedule the values of declared names. -/
def scheduleInitializers (declarators : List Located) (owner : NodeId) : Lowerer :=
  declarators.reverse.foldl (fun l d =>
    match d.child? "value" with
    | some value => l.push (.lower value owner)
    | none => l) l

/-- Enter a node with the extent of `node`. Its number is the next one of the program before. -/
def enter (attach : Attach) (kind : NodeKind) (node : Located) : Lowerer :=
  { l with program := attach.append kind node.extent.span l.program }

/-! ### Declarations -/

def lowerType (node : Located) (parent : NodeId) : Lowerer :=
  let id := l.program.nextId
  let l := l.enter (.child parent) (.type (node.typeDecl l.source)) node
  let l := (node.components l.source).foldl (fun l c => l.enter (.child id) (.field c) node) l
  l.scheduleBody node id

def lowerCallable (node : Located) (parent : NodeId) : Lowerer :=
  let id := l.program.nextId
  let l := l.enter (.child parent) (.callable (node.callableDecl l.source)) node
  l.scheduleBody node id

def lowerField (node : Located) (parent : NodeId) : Lowerer :=
  let inInterface := l.program.isInterface parent
  let id := l.program.nextId
  let l := l.enter (.child parent) (.field (node.fieldDecl l.source inInterface)) node
  l.scheduleInitializers node.declarators id

def lowerLocalVariable (node : Located) (parent : NodeId) : Lowerer :=
  let id := l.program.nextId
  let l := l.enter (.child parent) (.statement (node.localVariable l.source)) node
  l.scheduleInitializers node.declarators id

/-- A constructor invocation is a statement and, below it, a call. -/
def lowerConstructorInvocation (node : Located) (parent : NodeId) : Lowerer :=
  let statement := l.program.nextId
  let l := l.enter (.child parent) (.statement (.other node.kind)) node
  let id := l.program.nextId
  let l := l.enter (.child statement) (.constructorInvocation node.constructorInvocation) node
  l.scheduleArguments node id

/-- Enter a node that takes all that stands in its syntax node. -/
def lowerWhole (kind : NodeKind) (node : Located) (attach : Attach) : Lowerer :=
  let id := l.program.nextId
  let l := l.enter attach kind node
  l.scheduleChildren node id

/-! ### Expressions -/

def lowerMethodInvocation (node : Located) (attach : Attach) : Lowerer :=
  let id := l.program.nextId
  let l := l.enter attach (.methodCall (node.methodCall l.source)) node
  let l := l.scheduleArguments node id
  match node.receiver? l.source with
  | some receiver => l.push (.expression receiver (.receiver id))
  | none => l

/-- The members of a class without a name go below the creation of its object. -/
def lowerObjectCreation (node : Located) (attach : Attach) : Lowerer :=
  let id := l.program.nextId
  let l := l.enter attach (.objectCreation (node.objectCreation l.source)) node
  let l := node.classBodies.reverse.foldl (fun l body => l.scheduleChildren body id) l
  l.scheduleArguments node id

/-- Enter an expression and schedule its operand, which stands in a field. -/
def lowerOperation (kind : Expression) (operand : String) (node : Located) (attach : Attach) :
    Lowerer :=
  let id := l.program.nextId
  let l := l.enter attach (.expression kind) node
  match node.child? operand with
  | some operand => l.push (.expression operand (.child id))
  | none => l

def lowerExpression (node : Located) (attach : Attach) : Lowerer :=
  match node.shape l.source with
  | .parentheses =>
    match node.namedChildren.head? with
    | some inner => l.push (.expression inner attach)
    | none => l.enter attach (.expression .other) node
  | .methodInvocation => l.lowerMethodInvocation node attach
  | .objectCreation => l.lowerObjectCreation node attach
  | .name => l.enter attach (.expression (.name (node.text l.source))) node
  | .this => l.enter attach (.expression .this) node
  | .qualifiedThis =>
    l.enter attach (.expression (.qualifiedThis (node.fieldText l.source "object"))) node
  | .fieldAccess =>
    l.lowerOperation (.fieldAccess (node.fieldText l.source "field")) "object" node attach
  | .cast => l.lowerOperation (.cast (node.fieldText l.source "type")) "value" node attach
  | .literal typeName => l.enter attach (.expression (.literal typeName)) node
  | .other => l.lowerWhole (.expression .other) node attach

/-! ### Working off the stack -/

def lower (node : Located) (parent : NodeId) : Lowerer :=
  match node.treatment with
  | .skipped => l
  | .type => l.lowerType node parent
  | .callable => l.lowerCallable node parent
  | .field => l.lowerField node parent
  | .enumConstant =>
    match node.child? "arguments" with
    | some list => l.scheduleChildren list parent
    | none => l
  | .initializer isStatic => l.lowerWhole (.initializer isStatic) node (.child parent)
  | .localVariable => l.lowerLocalVariable node parent
  | .constructorInvocation => l.lowerConstructorInvocation node parent
  | .call => l.lowerExpression node (.child parent)
  | .statement => l.lowerWhole (.statement (.other node.kind)) node (.child parent)
  | .passed => l.scheduleChildren node parent

def perform : Task → Lowerer
  | .lower node parent => l.lower node parent
  | .expression node attach => l.lowerExpression node attach

/-- The second state has further tasks on top of those of the first, all of smaller rank than
`bound`. -/
def Schedules (bound : Nat) (l l' : Lowerer) : Prop :=
  ∃ tasks : List Task, l'.work = tasks ++ l.work ∧ ∀ t ∈ tasks, t.rank < bound

namespace Schedules

variable {bound : Nat} {l l' l'' : Lowerer}

theorem of_work_eq (same : l'.work = l.work) : Schedules bound l l' :=
  ⟨[], same, fun _ member => nomatch member⟩

theorem trans (first : Schedules bound l l') (second : Schedules bound l' l'') :
    Schedules bound l l'' := by
  obtain ⟨tasks, work, small⟩ := first
  obtain ⟨tasks', work', small'⟩ := second
  refine ⟨tasks' ++ tasks, by rw [work', work, List.append_assoc], fun t member => ?_⟩
  exact (List.mem_append.mp member).elim (small' t) (small t)

/-- Entering a node schedules nothing. -/
theorem after_enter {attach : Attach} {kind : NodeKind} {node : Located}
    (later : Schedules bound (l.enter attach kind node) l') : Schedules bound l l' := later

theorem push (l : Lowerer) {t : Task} (small : t.rank < bound) : Schedules bound l (l.push t) := by
  refine ⟨[t], rfl, fun t' member => ?_⟩
  rw [List.mem_singleton.mp member]
  exact small

theorem foldl {α : Type} {f : Lowerer → α → Lowerer} (items : List α)
    (each : ∀ l, ∀ x ∈ items, Schedules bound l (f l x)) (l : Lowerer) :
    Schedules bound l (items.foldl f l) := by
  induction items generalizing l with
  | nil => exact of_work_eq rfl
  | cons x rest ih =>
    have first := each l x List.mem_cons_self
    exact first.trans (ih (fun l y member => each l y (List.mem_cons_of_mem x member)) (f l x))

theorem scheduleChildren (l : Lowerer) {node : Located} (parent : NodeId)
    (small : sizeOf node.node ≤ bound) : Schedules bound l (l.scheduleChildren node parent) := by
  refine foldl _ (fun l c member => push l ?_) l
  have below := Located.sizeOf_lt_of_mem_namedChildren (List.mem_reverse.mp member)
  exact Nat.lt_of_lt_of_le below small

theorem scheduleArguments (l : Lowerer) {node : Located} (call : NodeId)
    (small : sizeOf node.node ≤ bound) : Schedules bound l (l.scheduleArguments node call) := by
  unfold Lowerer.scheduleArguments
  split
  · next list found =>
    refine foldl _ (fun l c member => push l ?_) l
    have inner := Located.sizeOf_lt_of_mem_namedChildren (List.mem_reverse.mp member)
    have outer := Located.sizeOf_lt_of_child? found
    exact Nat.lt_of_lt_of_le (Nat.lt_trans inner outer) small
  · exact of_work_eq rfl

theorem scheduleBody (l : Lowerer) {node : Located} (owner : NodeId)
    (small : sizeOf node.node ≤ bound) : Schedules bound l (l.scheduleBody node owner) := by
  unfold Lowerer.scheduleBody
  split
  · next body found =>
    have outer := Located.sizeOf_lt_of_child? found
    exact scheduleChildren l owner (by omega)
  · exact of_work_eq rfl

theorem scheduleInitializers (l : Lowerer) {node : Located} (owner : NodeId)
    (small : sizeOf node.node ≤ bound) :
    Schedules bound l (l.scheduleInitializers node.declarators owner) := by
  refine foldl _ (fun l d member => ?_) l
  split
  · next value found =>
    have inner := Located.sizeOf_lt_of_child? found
    have outer := Located.sizeOf_lt_of_mem_childrenIn (List.mem_reverse.mp member)
    exact push l (by rw [Task.rank]; simp only [Task.node]; omega)
  · exact of_work_eq rfl

end Schedules

theorem schedules_lowerOperation (l : Lowerer) (kind : Expression) (operand : String) (node : Located)
    (attach : Attach) : Schedules (sizeOf node.node) l (l.lowerOperation kind operand node attach) := by
  suffices later : Schedules (sizeOf node.node) (l.enter attach (.expression kind) node)
      (l.lowerOperation kind operand node attach) from later.after_enter
  unfold lowerOperation
  dsimp only
  split
  · next found => exact .push _ (Located.sizeOf_lt_of_child? found)
  · exact .of_work_eq rfl

theorem schedules_lowerMethodInvocation (l : Lowerer) (node : Located) (attach : Attach) :
    Schedules (sizeOf node.node) l (l.lowerMethodInvocation node attach) := by
  have arguments := Schedules.scheduleArguments
    (l.enter attach (.methodCall (node.methodCall l.source)) node) l.program.nextId
    (Nat.le_refl (sizeOf node.node))
  refine arguments.after_enter.trans ?_
  unfold lowerMethodInvocation
  dsimp only
  split
  · next found =>
    exact .push _ (Located.sizeOf_lt_of_child? (Located.child?_of_receiver? found))
  · exact .of_work_eq rfl

theorem schedules_lowerObjectCreation (l : Lowerer) (node : Located) (attach : Attach) :
    Schedules (sizeOf node.node) l (l.lowerObjectCreation node attach) := by
  have bodies := Schedules.foldl (f := fun l' body => l'.scheduleChildren body l.program.nextId)
    node.classBodies.reverse
    (fun l body member => .scheduleChildren l _ (Nat.le_of_lt
      (Located.sizeOf_lt_of_mem_namedChildren (List.mem_filter.mp (List.mem_reverse.mp member)).1)))
    (l.enter attach (.objectCreation (node.objectCreation l.source)) node)
  exact bodies.after_enter.trans (.scheduleArguments _ l.program.nextId (Nat.le_refl _))

theorem schedules_lowerWhole (l : Lowerer) (kind : NodeKind) (node : Located) (attach : Attach) :
    Schedules (sizeOf node.node) l (l.lowerWhole kind node attach) :=
  (Schedules.scheduleChildren (l.enter attach kind node) _ (Nat.le_refl _)).after_enter

theorem schedules_lowerExpression (l : Lowerer) (node : Located) (attach : Attach) :
    Schedules (sizeOf node.node) l (l.lowerExpression node attach) := by
  unfold lowerExpression
  cases node.shape l.source with
  | parentheses =>
    dsimp only
    split
    · next first =>
      exact .push l (Located.sizeOf_lt_of_mem_namedChildren (List.mem_of_head? first))
    · exact .of_work_eq rfl
  | methodInvocation => exact schedules_lowerMethodInvocation l node attach
  | objectCreation => exact schedules_lowerObjectCreation l node attach
  | fieldAccess => exact schedules_lowerOperation l _ _ node attach
  | cast => exact schedules_lowerOperation l _ _ node attach
  | other => exact schedules_lowerWhole l _ node attach
  | name | this | qualifiedThis | literal => exact .of_work_eq rfl

theorem schedules_lower (l : Lowerer) (node : Located) (parent : NodeId) :
    Schedules (sizeOf node.node) l (l.lower node parent) := by
  have whole := Nat.le_refl (sizeOf node.node)
  unfold lower
  cases node.treatment with
  | skipped => exact .of_work_eq rfl
  | type =>
    have components : Schedules (sizeOf node.node) _ _ := .foldl
      (f := fun l' c => l'.enter (.child l.program.nextId) (.field c) node)
      (node.components l.source) (fun l _ _ => .of_work_eq rfl)
      (l.enter (.child parent) (.type (node.typeDecl l.source)) node)
    exact components.after_enter.trans (.scheduleBody _ l.program.nextId whole)
  | callable => exact (Schedules.scheduleBody (l.enter _ _ node) _ whole).after_enter
  | field => exact (Schedules.scheduleInitializers (l.enter _ _ node) _ whole).after_enter
  | enumConstant =>
    dsimp only
    split
    · next found =>
      exact .scheduleChildren l parent (Nat.le_of_lt (Located.sizeOf_lt_of_child? found))
    · exact .of_work_eq rfl
  | initializer isStatic => exact schedules_lowerWhole l _ node _
  | localVariable => exact (Schedules.scheduleInitializers (l.enter _ _ node) _ whole).after_enter
  | constructorInvocation =>
    exact (Schedules.scheduleArguments ((l.enter _ _ node).enter _ _ node) _ whole).after_enter
  | call => exact schedules_lowerExpression l node _
  | statement => exact schedules_lowerWhole l _ node _
  | passed => exact .scheduleChildren l parent whole

theorem schedules_perform (l : Lowerer) (t : Task) : Schedules t.rank l (l.perform t) := by
  cases t with
  | lower node parent => exact schedules_lower l node parent
  | expression node attach => exact schedules_lowerExpression l node attach

/-- Do the tasks, the one on top first, until none is left. -/
def run (l : Lowerer) : Program :=
  match _h : l.work with
  | [] => l.program
  | t :: rest => run ({ l with work := rest }.perform t)
termination_by Walk.Agenda.mk (l.work.map Task.rank)
decreasing_by
  obtain ⟨tasks, work, small⟩ := schedules_perform { l with work := rest } t
  rw [work, _h, List.map_append, List.map_cons]
  refine .replace fun r member => ?_
  obtain ⟨t', listed, rfl⟩ := List.mem_map.mp member
  exact small t' listed

end Lowerer

/-! ### Files -/

/-- The name in the package declaration of a file. -/
def Located.package? (source : List Char) (root : Located) : Option String := do
  let declaration ← (root.node.children.filter (·.isNamed)).find? (·.kind == "package_declaration")
  let name ← (declaration.children.filter (·.isNamed)).find? fun c =>
    c.kind == "scoped_identifier" || c.kind == "identifier"
  name.extent.slice? source

/-- Append a file as a unit. -/
def lowerSource (p : Program) (path : String) (origin : UnitOrigin) (contentHash : String)
    (text : String) (root : Syntax) : Program :=
  let source := text.toList
  let file : Located := { node := root }
  let program := p.addUnit { path, package := file.package? source, origin, contentHash }
  ({ source, program : Lowerer }.scheduleChildren file p.nextId).run

end JavaCallGraph.Java
