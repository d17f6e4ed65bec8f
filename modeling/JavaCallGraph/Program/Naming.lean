import JavaCallGraph.Program.Ancestry
import JavaCallGraph.TypeName

/-!
Names of declarations, and when two nodes count as the same.
-/

namespace JavaCallGraph

/-- A declaration's signature together with the type that owns it. -/
structure QualifiedSignature where
  /-- Qualified owner, such as `com.acme.Outer.Inner`. -/
  owner : String
  name : String
  parameterTypes : List String
  deriving DecidableEq, Repr, Inhabited

namespace QualifiedSignature

/-- Key for look-up: simple owner name, name and normalized parameter types. -/
def key (s : QualifiedSignature) : String :=
  TypeName.lastSegment s.owner ++ "." ++ s.name ++ "(" ++
    ",".intercalate (s.parameterTypes.map TypeName.normalize) ++ ")"

def display (s : QualifiedSignature) : String :=
  s.owner ++ "." ++ s.name ++ "(" ++ ", ".intercalate s.parameterTypes ++ ")"

end QualifiedSignature

namespace Program

/-- The name of a type or callable declaration. -/
def simpleName? (p : Program) (id : NodeId) : Option String := (p.kind? id).bind (·.simpleName?)

/-- The innermost node above that carries a name. -/
def nearestNamedAncestor? (p : Program) (id : NodeId) : Option NodeId :=
  (p.ancestors id).find? fun a => (p.simpleName? a).isSome

/-- The name of the innermost named node above. -/
def ownerName? (p : Program) (id : NodeId) : Option String :=
  (p.nearestNamedAncestor? id).bind p.simpleName?

def signature? (p : Program) (id : NodeId) : Option String :=
  (p.callable? id).map (·.signature)

/-- `package.Outer.Inner`: the names of the types around a node, itself included. -/
def qualifiedTypeName (p : Program) (id : NodeId) : String :=
  let nested := ".".intercalate ((p.lineage id).filterMap fun a => (p.typeDecl? a).map (·.name)).reverse
  match (p.unit? id).bind (·.package) with
  | some package => if package.isEmpty then nested else package ++ "." ++ nested
  | none => nested

def qualifiedSignature? (p : Program) (id : NodeId) : Option QualifiedSignature := do
  let decl ← p.callable? id
  let owner ← p.enclosingType? id
  return { owner := p.qualifiedTypeName owner, name := decl.name, parameterTypes := decl.parameterTypes }

/-- Short text for a node, as messages show it. -/
def describe (p : Program) (id : NodeId) : String :=
  match p.get? id with
  | none => "<unknown node " ++ id.display ++ ">"
  | some n =>
    let line := toString n.span.startLine
    match n.kind with
    | .unit u => u.path
    | .type _ => p.qualifiedTypeName id
    | .callable d =>
      match p.enclosingType? id with
      | some owner => p.qualifiedTypeName owner ++ "." ++ d.signature
      | none => d.signature
    | .methodCall c => c.name ++ "(..)@" ++ line
    | .objectCreation c => "new " ++ c.typeName ++ "(..)@" ++ line
    | .constructorInvocation c => (if c.isThis then "this" else "super") ++ "(..)@" ++ line
    | k => k.label ++ id.display ++ "@" ++ line

/-- Equality that also accepts the same syntax seen through another view of the same file: equal
and known spans, the same label and units of the same path. -/
def sameRange (p : Program) (a b : NodeId) : Bool :=
  a == b ||
    (!(p.span a).isUnknown && p.span a == p.span b &&
      (p.kind? a).map (·.label) == (p.kind? b).map (·.label) &&
      match p.unit? a, p.unit? b with
      | some u, some v => u.path == v.path
      | _, _ => false)

/-- As `sameRange`, for numbers that may not be nodes: comparing two spans needs both. -/
def sameRangeAt (p : Program) (a b : NodeId) : Except Error Bool := do
  if a ≠ b then
    let _ ← p.node a
    let _ ← p.node b
  return p.sameRange a b

/-- Whether two declarations stand for the same vertex: the same node, or equal signatures below
equally named owners. -/
def sameDeclaration (p : Program) (a b : NodeId) : Bool :=
  a == b ||
    ((p.signature? a).isSome && p.signature? a == p.signature? b &&
      (p.ownerName? a).isSome && p.ownerName? a == p.ownerName? b)

end Program

end JavaCallGraph
