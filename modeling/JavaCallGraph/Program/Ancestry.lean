import JavaCallGraph.Program.Basic

/-!
Moving up and down a program's forest.

A parent has a smaller number than its children, so a chain of parents from a node is at most as
long as the node's number, and a descent at most as deep as the program is large. These bounds
make the two walks structural; the callers see neither.
-/

namespace JavaCallGraph.Program

/-- The chain of parents that starts at `start`, of at most `bound` nodes. -/
def chain (p : Program) : (bound : Nat) → (start : Option NodeId) → List NodeId
  | 0, _ => []
  | _ + 1, none => []
  | bound + 1, some id => id :: chain p bound (p.parent? id)

/-- The nodes strictly above a node, innermost first. -/
def ancestors (p : Program) (id : NodeId) : List NodeId := p.chain p.size (p.parent? id)

/-- The node itself, then the nodes above it. -/
def lineage (p : Program) (id : NodeId) : List NodeId := id :: p.ancestors id

/-- Pre-order listing of a subtree, to a depth of `depth` nodes. -/
def preorder (p : Program) : (depth : Nat) → NodeId → List NodeId
  | 0, _ => []
  | depth + 1, id => id :: (p.children id).flatMap (preorder p depth)

/-- A node and everything beneath it, in pre-order. -/
def descendants (p : Program) (id : NodeId) : List NodeId := p.preorder (p.size + 1) id

/-- Whether `node` is `container` or lies beneath it. -/
def contains (p : Program) (container node : NodeId) : Bool :=
  node == container || (p.ancestors node).contains container

/-- As `contains`, for numbers that may not be nodes: looking above `node` needs one. -/
def containsAt (p : Program) (container node : NodeId) : Except Error Bool :=
  if node ≠ container && !p.has node then .error (.missingNode node)
  else .ok (p.contains container node)

/-- Pre-order listing of all roots. -/
def allUnder (p : Program) (roots : List NodeId) : List NodeId := roots.flatMap p.descendants

/-! ### Payloads -/

def typeDecl? (p : Program) (id : NodeId) : Option TypeDecl := (p.kind? id).bind (·.type?)

def callable? (p : Program) (id : NodeId) : Option CallableDecl := (p.kind? id).bind (·.callable?)

def fieldDecl? (p : Program) (id : NodeId) : Option FieldDecl := (p.kind? id).bind (·.field?)

def isType (p : Program) (id : NodeId) : Bool := (p.typeDecl? id).isSome

def isInterface (p : Program) (id : NodeId) : Bool :=
  (p.typeDecl? id).any (·.kind == .interfaceType)

def isCallable (p : Program) (id : NodeId) : Bool := (p.callable? id).isSome

def isField (p : Program) (id : NodeId) : Bool := (p.fieldDecl? id).isSome

def isUnit (p : Program) (id : NodeId) : Bool := ((p.kind? id).bind (·.unit?)).isSome

def isDeclaration (p : Program) (id : NodeId) : Bool := (p.kind? id).any (·.isDeclaration)

def callKind? (p : Program) (id : NodeId) : Option CallKind := (p.kind? id).bind (·.callKind?)

/-- The arguments of a call; none for any other node. -/
def arguments (p : Program) (id : NodeId) : List NodeId :=
  match p.kind? id with
  | some k => k.arguments
  | none => []

/-! ### Enclosing nodes -/

/-- The unit a node lies in, itself included. -/
def unitOf? (p : Program) (id : NodeId) : Option NodeId := (p.lineage id).find? p.isUnit

def unit? (p : Program) (id : NodeId) : Option CompilationUnit :=
  (p.unitOf? id).bind fun u => (p.kind? u).bind (·.unit?)

/-- Type declarations strictly above a node, innermost first. -/
def enclosingTypes (p : Program) (id : NodeId) : List NodeId := (p.ancestors id).filter p.isType

def enclosingType? (p : Program) (id : NodeId) : Option NodeId := (p.ancestors id).find? p.isType

def enclosingCallable? (p : Program) (id : NodeId) : Option NodeId :=
  (p.ancestors id).find? p.isCallable

/-! ### Members of a type -/

def membersOf (p : Program) (kind : CallableKind) (type : NodeId) : List NodeId :=
  (p.children type).filter fun c => (p.callable? c).any (·.kind == kind)

def constructorsOf (p : Program) (type : NodeId) : List NodeId := p.membersOf .constructor type

def methodsOf (p : Program) (type : NodeId) : List NodeId := p.membersOf .method type

def fieldsOf (p : Program) (type : NodeId) : List NodeId := (p.children type).filter p.isField

end JavaCallGraph.Program
