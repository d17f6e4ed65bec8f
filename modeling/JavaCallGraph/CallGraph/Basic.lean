import JavaCallGraph.CallGraph.Edge
import JavaCallGraph.CallGraph.Report
import JavaCallGraph.CallGraph.Vertex
import JavaCallGraph.Index

/-!
Call graphs over method and constructor declarations.

Vertices are found by signature first and by owner within the signature's bucket.
-/

namespace JavaCallGraph

structure CallGraph where
  /-- Vertices, edges and reports stand in order of insertion. -/
  vertices : List Vertex := []
  bySignature : Index String Vertex := {}
  links : List Link := []
  reports : List Report := []
  built : Bool := false

namespace CallGraph

def empty : CallGraph := {}

/-- The vertex of a declaration, if the graph has one. -/
def vertex? (g : CallGraph) (p : Program) (declaration : NodeId) : Option Vertex := do
  let signature ← p.signature? declaration
  (g.bySignature.get signature).find? (·.isFor p declaration)

def vertex (g : CallGraph) (p : Program) (declaration : NodeId) : Except Error Vertex :=
  match g.vertex? p declaration with
  | some v => .ok v
  | none => .error (.vertexNotFound (p.describe declaration))

def addVertex (g : CallGraph) (v : Vertex) : CallGraph :=
  { g with vertices := g.vertices ++ [v], bySignature := g.bySignature.insert v.signature v }

def addLink (g : CallGraph) (link : Link) : CallGraph := { g with links := g.links ++ [link] }

def addReport (g : CallGraph) (report : Report) : CallGraph :=
  { g with reports := g.reports ++ [report] }

def stats (g : CallGraph) : Stats :=
  let count := fun test => g.reports.countP fun r => test r.outcome
  { vertices := g.vertices.length
    edges := g.links.length
    callSites := g.reports.length
    linked := count (·.isLinked)
    typeLevel := count (· == .typeLevel)
    unresolved := count (·.isUnresolved)
    noTargets := count (· == .noTargets)
    dropped := count (·.isDropped) }

end CallGraph

end JavaCallGraph
