import JavaCallGraph.CallGraph.Query

/-!
Transitive callers and callees, breadth first and within bounds.
-/

namespace JavaCallGraph

/-! ### Bounds -/

namespace Bound

def maxDepth : Nat := 32

def maxVisited : Nat := 20000

def maxEntries : Nat := 50000

/-- Raise to the minimum, then lower to the maximum. -/
def clamp (value minimum maximum : Nat) : Nat := min (max value minimum) maximum

/-- A depth is at least one. -/
def clampDepth (value maximum : Nat) : Nat := clamp value 1 maximum

/-- A cap that grows with the graph: a fifth of its vertices, within `floor` and `cap`. -/
def visitCap (vertices cap floor : Nat) : Nat := clamp (max floor (max vertices 1 / 5)) floor cap

end Bound

namespace CallGraph

inductive Direction where
  | callers
  | callees
  deriving DecidableEq, Repr

/-- A declaration met on the walk, its depth, and the call of the edge that first led to it. -/
structure Visit where
  declaration : NodeId
  depth : Nat
  via : NodeId
  deriving DecidableEq, Repr

namespace Reach

structure State where
  visited : List NodeId
  entries : List Visit := []
  queue : List (NodeId × Nat) := []

def State.isFull (s : State) (cap : Nat) : Bool :=
  Bound.maxEntries ≤ s.entries.length || cap ≤ s.visited.length

/-- The far end of an edge. -/
def farEnd (direction : Direction) (link : Link) : NodeId :=
  match direction with
  | .callers => link.source
  | .callees => link.target

/-- Follow one edge to a declaration at `depth`. -/
def follow (direction : Direction) (cap depth : Nat) (s : State) (link : Link) : State :=
  let next := farEnd direction link
  if s.isFull cap || s.visited.contains next then s
  else
    { visited := s.visited ++ [next]
      entries := s.entries ++ [{ declaration := next, depth, via := link.edge.call }]
      queue := s.queue ++ [(next, depth)] }

variable (g : CallGraph) (p : Program) (direction : Direction)

def edgesAt (declaration : NodeId) : Except Error (List Link) :=
  match direction with
  | .callers => g.edgesTo p declaration
  | .callees => g.edgesFrom p declaration

/-- Serve the queue. Each declaration is queued once, so the number of vertices bounds the
steps. -/
def serve (maxDepth cap : Nat) : (steps : Nat) → State → Except Error (List Visit)
  | 0, s => .ok s.entries
  | steps + 1, s =>
    match s.queue with
    | [] => .ok s.entries
    | (current, depth) :: queue =>
      let s := { s with queue }
      if s.isFull cap then .ok s.entries
      else if maxDepth ≤ depth then serve maxDepth cap steps s
      else do
        let links ← edgesAt g p direction current
        serve maxDepth cap steps (links.foldl (follow direction cap (depth + 1)) s)

end Reach

variable (g : CallGraph) (p : Program)

/-- Breadth-first walk along call edges. Each declaration is listed once, at the depth where it
was first reached; the start is not listed. -/
def walkFrom (start : NodeId) (direction : Direction) (maxDepth : Nat) :
    Except Error (List Visit) := do
  let v ← g.vertex p start
  let cap := Bound.visitCap g.vertices.length Bound.maxVisited 200
  Reach.serve g p direction (Bound.clampDepth maxDepth Bound.maxDepth) cap
    (g.vertices.length + 2) { visited := [v.declaration], queue := [(v.declaration, 0)] }

/-- Every declaration that may transitively call the given one. -/
def transitiveCallers (declaration : NodeId) : Except Error (List NodeId) :=
  return (← g.walkFrom p declaration .callers Bound.maxDepth).map (·.declaration)

/-- Every declaration that the given one may transitively call. -/
def transitiveCallees (declaration : NodeId) : Except Error (List NodeId) :=
  return (← g.walkFrom p declaration .callees Bound.maxDepth).map (·.declaration)

end CallGraph

end JavaCallGraph
