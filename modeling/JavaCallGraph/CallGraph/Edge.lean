import JavaCallGraph.Point

/-!
Edges of a call graph: call sites, each anchored at the program point that holds the call.
-/

namespace JavaCallGraph

structure Edge where
  kind : CallKind
  call : NodeId
  point : ProgramPoint
  deriving DecidableEq, Repr, Inhabited

/-- An edge: the call must have the given form and lie inside the point's node. -/
def Edge.of (p : Program) (kind : CallKind) (call : NodeId) (point : ProgramPoint) :
    Except Error Edge := do
  let node ← p.node call
  if node.kind.callKind? ≠ some kind then
    .error (.illegalState (p.describe call ++ " is not a " ++ kind.title))
  else if !p.contains point.node call then
    .error (.pointNotFound (p.describe call) (p.describe point.declaration))
  else .ok { kind, call, point }

/-- An edge with the declarations of its two vertices. -/
structure Link where
  source : NodeId
  target : NodeId
  edge : Edge
  deriving DecidableEq, Repr, Inhabited

end JavaCallGraph
