import JavaCallGraph.CallGraph.Basic

/-!
Direct questions to a call graph. Declarations are looked up through their vertices, so a
declaration seen through another view of the same file finds the same vertex. Answers list one
entry per edge, in order of insertion.
-/

namespace JavaCallGraph.CallGraph

variable (g : CallGraph) (p : Program)

/-- Edges that leave a declaration. -/
def edgesFrom (declaration : NodeId) : Except Error (List Link) := do
  let v ← g.vertex p declaration
  return g.links.filter (·.source == v.declaration)

/-- Edges that enter a declaration. -/
def edgesTo (declaration : NodeId) : Except Error (List Link) := do
  let v ← g.vertex p declaration
  return g.links.filter (·.target == v.declaration)

/-- Targets of every edge made for a call. -/
def callTargets (call : NodeId) : List NodeId :=
  (g.links.filter fun l => p.sameRange l.edge.call call).map (·.target)

/-- As `callTargets`, for a call that may not be a node: comparing it with an edge needs one. -/
def callTargetsAt (call : NodeId) : Except Error (List NodeId) :=
  if !g.links.isEmpty && !p.has call then .error (.missingNode call) else .ok (g.callTargets p call)

/-- Calls that reach a declaration. -/
def callsTo (declaration : NodeId) : Except Error (List NodeId) :=
  return (← g.edgesTo p declaration).map (·.edge.call)

/-- Calls made by a declaration. -/
def callsFrom (declaration : NodeId) : Except Error (List NodeId) :=
  return (← g.edgesFrom p declaration).map (·.edge.call)

def callersOf (declaration : NodeId) : Except Error (List NodeId) :=
  return (← g.edgesTo p declaration).map (·.source)

def calleesOf (declaration : NodeId) : Except Error (List NodeId) :=
  return (← g.edgesFrom p declaration).map (·.target)

end JavaCallGraph.CallGraph
