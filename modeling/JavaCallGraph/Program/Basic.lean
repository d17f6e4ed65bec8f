import JavaCallGraph.Program.Node

/-!
Programs: forests of numbered nodes that only grow.

A node gets the next free number. Reading at a number that names no node gives nothing here;
operations that need the node there say so with `Error.missingNode`.
-/

namespace JavaCallGraph

/-- All compilation units of a program. `units` lists the roots in order of insertion. -/
structure Program where
  nodes : Array Node := #[]
  units : List NodeId := []
  deriving DecidableEq, Repr, Inhabited

namespace Program

def empty : Program := {}

def size (p : Program) : Nat := p.nodes.size

/-- The number that the next node gets. -/
def nextId (p : Program) : NodeId := ⟨p.size⟩

/-- All nodes, in order of insertion. -/
def ids (p : Program) : List NodeId := (List.range p.size).map NodeId.mk

def get? (p : Program) (id : NodeId) : Option Node := p.nodes[id.index]?

def has (p : Program) (id : NodeId) : Bool := id.index < p.size

/-- The node at a number, or the failure to find one there. -/
def node (p : Program) (id : NodeId) : Except Error Node :=
  match p.get? id with
  | some n => .ok n
  | none => .error (.missingNode id)

def kind? (p : Program) (id : NodeId) : Option NodeKind := (p.get? id).map (·.kind)

def parent? (p : Program) (id : NodeId) : Option NodeId := (p.get? id).bind (·.parent)

def children (p : Program) (id : NodeId) : List NodeId :=
  match p.get? id with
  | some n => n.children
  | none => []

def span (p : Program) (id : NodeId) : Span :=
  match p.get? id with
  | some n => n.span
  | none => .unknown

/-- Change the node at a number, if there is one. -/
def modify (p : Program) (id : NodeId) (f : Node → Node) : Program :=
  { p with nodes := p.nodes.modify id.index f }

/-! ### Insertion -/

/-- Append a root unit. -/
def addUnit (p : Program) (unit : CompilationUnit) : Program :=
  { nodes := p.nodes.push { kind := .unit unit }, units := p.units ++ [p.nextId] }

/-- Append a node and enter it among the children of its parent. -/
def append (p : Program) (parent : NodeId) (kind : NodeKind) (span : Span) : Program :=
  let grown := { p with nodes := p.nodes.push { kind, parent := some parent, span } }
  grown.modify parent fun n => { n with children := n.children ++ [p.nextId] }

/-- Append the receiver of a method call and switch the call's scope to it. -/
def appendReceiver (p : Program) (call : NodeId) (kind : NodeKind) (span : Span) : Program :=
  (p.append call kind span).modify call fun n => { n with kind := n.kind.setReceiver p.nextId }

/-- Append an argument of a call. Other parents just get a child. -/
def appendArgument (p : Program) (call : NodeId) (kind : NodeKind) (span : Span) : Program :=
  (p.append call kind span).modify call fun n => { n with kind := n.kind.addArgument p.nextId }

/-- Run an insertion below `parent`, which must be a node once the new one is in place; the
answer is the new node's number and the grown program. -/
def under (p : Program) (parent : NodeId) (insertion : Program → Program) :
    Except Error (NodeId × Program) :=
  if parent.index ≤ p.size then .ok (p.nextId, insertion p) else .error (.missingNode parent)

def add (p : Program) (parent : NodeId) (kind : NodeKind) (span : Span := .unknown) :
    Except Error (NodeId × Program) :=
  p.under parent (·.append parent kind span)

def addReceiver (p : Program) (call : NodeId) (kind : NodeKind) (span : Span := .unknown) :
    Except Error (NodeId × Program) :=
  p.under call (·.appendReceiver call kind span)

def addArgument (p : Program) (call : NodeId) (kind : NodeKind) (span : Span := .unknown) :
    Except Error (NodeId × Program) :=
  p.under call (·.appendArgument call kind span)

def addType (p : Program) (parent : NodeId) (decl : TypeDecl) : Except Error (NodeId × Program) :=
  p.add parent (.type decl)

def addCallable (p : Program) (owner : NodeId) (decl : CallableDecl) :
    Except Error (NodeId × Program) :=
  p.add owner (.callable decl)

/-- A constructor named after its owner, or with an empty name below an owner without one. -/
def addConstructor (p : Program) (owner : NodeId) (parameters : List Parameter) :
    Except Error (NodeId × Program) := do
  let node ← p.node owner
  p.addCallable owner
    { kind := .constructor, name := node.kind.simpleName?.getD "", parameters }

def addField (p : Program) (owner : NodeId) (decl : FieldDecl) :
    Except Error (NodeId × Program) :=
  p.add owner (.field decl)

/-- An expression statement. -/
def addStatement (p : Program) (parent : NodeId) : Except Error (NodeId × Program) :=
  p.add parent (.statement (.other "expression_statement"))

def addLocalVariable (p : Program) (parent : NodeId) (typeName name : String) :
    Except Error (NodeId × Program) :=
  p.add parent (.statement (.localVariable typeName [name]))

def addMethodCall (p : Program) (parent : NodeId) (name : String) (scope : CallScope) :
    Except Error (NodeId × Program) :=
  p.add parent (.methodCall { name, scope })

def addObjectCreation (p : Program) (parent : NodeId) (typeName : String) :
    Except Error (NodeId × Program) :=
  p.add parent (.objectCreation { typeName })

def addConstructorInvocation (p : Program) (parent : NodeId) (isThis : Bool) :
    Except Error (NodeId × Program) :=
  p.add parent (.constructorInvocation { isThis })

def setSpan (p : Program) (id : NodeId) (span : Span) : Except Error Program := do
  let _ ← p.node id
  return p.modify id fun n => { n with span }

/-! ### Size and reading after an insertion -/

@[simp] theorem size_empty : empty.size = 0 := rfl

@[simp] theorem size_modify (p : Program) (id : NodeId) (f : Node → Node) :
    (p.modify id f).size = p.size := by
  simp [modify, size]

@[simp] theorem size_addUnit (p : Program) (u : CompilationUnit) :
    (p.addUnit u).size = p.size + 1 := by
  simp [addUnit, size]

@[simp] theorem size_append (p : Program) (parent : NodeId) (k : NodeKind) (s : Span) :
    (p.append parent k s).size = p.size + 1 := by
  simp [append, modify, size]

@[simp] theorem units_append (p : Program) (parent : NodeId) (k : NodeKind) (s : Span) :
    (p.append parent k s).units = p.units := rfl

end Program

end JavaCallGraph
