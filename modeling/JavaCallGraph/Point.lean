import JavaCallGraph.Index
import JavaCallGraph.Program.Naming

/-!
Program points: the statements of a declaration's body, to which call edges are anchored.

Every statement in a callable's own body is a point of it; statements inside nested callables or
types belong to those. A constructor also owns the non-static fields of its type, whose
initializers run as part of construction.
-/

namespace JavaCallGraph

structure ProgramPoint where
  id : Nat
  /-- The method or constructor that owns the point. -/
  declaration : NodeId
  /-- The statement or field that the point stands for. -/
  node : NodeId
  deriving DecidableEq, Repr, Inhabited

namespace Program

def isStatement (p : Program) (id : NodeId) : Bool :=
  match p.kind? id with
  | some (.statement _) => true
  | _ => false

/-- Statements in a subtree that does not go into types and callables, in pre-order. -/
def statementsIn (p : Program) : (depth : Nat) → NodeId → List NodeId
  | 0, _ => []
  | depth + 1, id =>
    if p.isDeclaration id then []
    else
      let below := (p.children id).flatMap (statementsIn p depth)
      if p.isStatement id then id :: below else below

/-- Statements below a declaration that are not inside a nested callable or type. -/
def ownStatements (p : Program) (decl : NodeId) : List NodeId :=
  (p.children decl).flatMap (p.statementsIn (p.size + 1))

/-- The non-static fields that a constructor's type initializes; none for other callables. -/
def initializedFields (p : Program) (decl : NodeId) : List NodeId :=
  if (p.callable? decl).any (·.kind == .constructor) then
    match p.enclosingType? decl with
    | some type => (p.fieldsOf type).filter fun f => (p.fieldDecl? f).any (!·.isStatic)
    | none => []
  else []

/-- The nodes that are points of a callable: fields first, then statements. -/
def pointNodes (p : Program) (decl : NodeId) : List NodeId :=
  p.initializedFields decl ++ p.ownStatements decl

end Program

/-- The points of a program, by owner and node and by owner alone. -/
structure PointIndex where
  program : Program
  byNode : Index (NodeId × NodeId) ProgramPoint
  byDeclaration : Index NodeId ProgramPoint

namespace PointIndex

/-- All points, numbered in visiting order. -/
def pointsOf (p : Program) : List ProgramPoint :=
  let owned := ((p.allUnder p.units).filter p.isCallable).flatMap fun d =>
    (p.pointNodes d).map (d, ·)
  owned.zipIdx.map fun ((declaration, node), id) => { id, declaration, node }

def build (p : Program) : PointIndex :=
  let points := pointsOf p
  { program := p
    byNode := Index.ofPairs (points.map fun q => ((q.declaration, q.node), q))
    byDeclaration := Index.ofPairs (points.map fun q => (q.declaration, q)) }

/-- The points of a declaration: fields first for a constructor, then statements in source
order. -/
def of (ix : PointIndex) (declaration : NodeId) : List ProgramPoint :=
  ix.byDeclaration.get declaration

/-- The number of points, which differ in owner or node. -/
def size (ix : PointIndex) : Nat := ix.byNode.buckets.length

def find? (ix : PointIndex) (declaration node : NodeId) : Option ProgramPoint :=
  (ix.byNode.get (declaration, node)).getLast?

/-- The innermost point of a declaration whose node holds the call. -/
def containing (ix : PointIndex) (declaration call : NodeId) : Except Error ProgramPoint :=
  if !ix.program.has call then .error (.missingNode call)
  else
    match (ix.program.lineage call).findSome? (ix.find? declaration) with
    | some q => .ok q
    | none =>
      .error (.pointNotFound (ix.program.describe call) (ix.program.describe declaration))

end PointIndex

end JavaCallGraph
