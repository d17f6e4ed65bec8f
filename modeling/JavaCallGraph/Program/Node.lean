import JavaCallGraph.Error
import JavaCallGraph.Text.Blank

/-!
What a program holds at each node: where it stands in the source and which facts it keeps.
-/

namespace JavaCallGraph

/-- Source range of a node. Lines count from one; all zero means that the place is unknown. -/
structure Span where
  startLine : Nat := 0
  endLine : Nat := 0
  startByte : Nat := 0
  endByte : Nat := 0
  deriving DecidableEq, Repr, Inhabited

namespace Span

def unknown : Span := {}

def lines (first last : Nat) : Span := { startLine := first, endLine := last }

def isUnknown (s : Span) : Bool := s == unknown

end Span

/-- Where a compilation unit came from. Of a library unit only signatures are known. -/
inductive UnitOrigin where
  | source
  | library
  deriving DecidableEq, Repr, Inhabited

structure CompilationUnit where
  path : String
  package : Option String := none
  origin : UnitOrigin := .source
  contentHash : String := ""
  deriving DecidableEq, Repr, Inhabited

inductive TypeKind where
  | classType
  | interfaceType
  | enumType
  | recordType
  deriving DecidableEq, Repr, Inhabited

/-- A type declaration; supertypes are kept as written. -/
structure TypeDecl where
  kind : TypeKind
  name : String
  superclass : Option String := none
  interfaces : List String := []
  deriving DecidableEq, Repr, Inhabited

inductive CallableKind where
  | method
  | constructor
  deriving DecidableEq, Repr, Inhabited

structure Parameter where
  typeName : String
  name : String
  deriving DecidableEq, Repr, Inhabited

structure CallableDecl where
  kind : CallableKind
  name : String
  parameters : List Parameter := []
  returnType : Option String := none
  isStatic : Bool := false
  deriving DecidableEq, Repr, Inhabited

namespace CallableDecl

/-- An instance method without parameters that returns `void`. -/
def method (name : String) : CallableDecl :=
  { kind := .method, name, returnType := some "void" }

def arity (d : CallableDecl) : Nat := d.parameters.length

/-- Parameter types as written, with blanks collapsed. -/
def parameterTypes (d : CallableDecl) : List String :=
  d.parameters.map fun p => Text.collapse p.typeName

/-- `name(T1, T2)`. -/
def signature (d : CallableDecl) : String :=
  d.name ++ "(" ++ ", ".intercalate d.parameterTypes ++ ")"

end CallableDecl

structure FieldDecl where
  typeName : String
  names : List String
  isStatic : Bool := false
  deriving DecidableEq, Repr, Inhabited

inductive Statement where
  | localVariable (typeName : String) (names : List String)
  /-- Any other statement, with the name of its syntax. -/
  | other (form : String)
  deriving DecidableEq, Repr, Inhabited

/-- What stands before the name in a method call. -/
inductive CallScope where
  /-- `foo()` -/
  | implicit
  /-- `this.foo()` -/
  | this
  /-- `Outer.this.foo()` -/
  | qualifiedThis (typeName : String)
  /-- `super.foo()` -/
  | super
  /-- `T.super.foo()`, with `T` an enclosing class or a direct interface -/
  | qualifiedSuper (typeName : String)
  /-- `e.foo()` with the node of `e` -/
  | expression (receiver : NodeId)
  deriving DecidableEq, Repr, Inhabited

structure MethodCall where
  name : String
  scope : CallScope := .implicit
  arguments : List NodeId := []
  deriving DecidableEq, Repr, Inhabited

structure ObjectCreation where
  typeName : String
  arguments : List NodeId := []
  deriving DecidableEq, Repr, Inhabited

/-- `this(...)` or `super(...)` at the start of a constructor. -/
structure ConstructorInvocation where
  isThis : Bool
  arguments : List NodeId := []
  deriving DecidableEq, Repr, Inhabited

inductive Expression where
  | name (text : String)
  | this
  | qualifiedThis (typeName : String)
  /-- The object is the first child. -/
  | fieldAccess (field : String)
  /-- The operand is the first child. -/
  | cast (typeName : String)
  /-- A literal of a primitive type or of `String`. -/
  | literal (typeName : String)
  | other
  deriving DecidableEq, Repr, Inhabited

inductive NodeKind where
  | unit (unit : CompilationUnit)
  | type (decl : TypeDecl)
  | callable (decl : CallableDecl)
  | field (decl : FieldDecl)
  | initializer (isStatic : Bool)
  | statement (statement : Statement)
  | methodCall (call : MethodCall)
  | objectCreation (creation : ObjectCreation)
  | constructorInvocation (invocation : ConstructorInvocation)
  | expression (expression : Expression)
  deriving DecidableEq, Repr, Inhabited

/-- The three forms of a call. -/
inductive CallKind where
  | methodCall
  | objectCreation
  | constructorInvocation
  deriving DecidableEq, Repr, Inhabited

namespace CallKind

/-- The name a message gives to the form. -/
def title : CallKind → String
  | methodCall => "MethodCall"
  | objectCreation => "ObjectCreation"
  | constructorInvocation => "ConstructorInvocation"

end CallKind

namespace NodeKind

def label : NodeKind → String
  | unit _ => "unit"
  | type _ => "type"
  | callable _ => "callable"
  | field _ => "field"
  | initializer _ => "initializer"
  | statement _ => "statement"
  | methodCall _ => "method_call"
  | objectCreation _ => "object_creation"
  | constructorInvocation _ => "constructor_invocation"
  | expression _ => "expression"

def callKind? : NodeKind → Option CallKind
  | methodCall _ => some .methodCall
  | objectCreation _ => some .objectCreation
  | constructorInvocation _ => some .constructorInvocation
  | _ => none

def isCall (k : NodeKind) : Bool := k.callKind?.isSome

def isExpression : NodeKind → Bool
  | expression _ => true
  | _ => false

def type? : NodeKind → Option TypeDecl
  | type d => some d
  | _ => none

def callable? : NodeKind → Option CallableDecl
  | callable d => some d
  | _ => none

def field? : NodeKind → Option FieldDecl
  | field d => some d
  | _ => none

def unit? : NodeKind → Option CompilationUnit
  | unit u => some u
  | _ => none

/-- Types and callables open a scope of their own. -/
def isDeclaration : NodeKind → Bool
  | type _ | callable _ => true
  | _ => false

/-- The name of a type or callable declaration. -/
def simpleName? : NodeKind → Option String
  | type d => some d.name
  | callable d => some d.name
  | _ => none

def arguments : NodeKind → List NodeId
  | methodCall c => c.arguments
  | objectCreation c => c.arguments
  | constructorInvocation c => c.arguments
  | _ => []

/-- Record one more argument of a call; nothing changes on other nodes. -/
def addArgument (argument : NodeId) : NodeKind → NodeKind
  | methodCall c => methodCall { c with arguments := c.arguments ++ [argument] }
  | objectCreation c => objectCreation { c with arguments := c.arguments ++ [argument] }
  | constructorInvocation c =>
    constructorInvocation { c with arguments := c.arguments ++ [argument] }
  | k => k

/-- Make a node the receiver of a method call; nothing changes on other nodes. -/
def setReceiver (receiver : NodeId) : NodeKind → NodeKind
  | methodCall c => methodCall { c with scope := .expression receiver }
  | k => k

end NodeKind

structure Node where
  kind : NodeKind
  parent : Option NodeId := none
  children : List NodeId := []
  span : Span := .unknown
  deriving DecidableEq, Repr, Inhabited

end JavaCallGraph
