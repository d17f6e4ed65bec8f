import JavaCallGraph.Program.Naming

/-!
Vertices of a call graph: method and constructor declarations, identified by signature and owner.
-/

namespace JavaCallGraph

structure Vertex where
  declaration : NodeId
  kind : CallableKind
  signature : String
  /-- The name of the innermost named node above the declaration. -/
  owner : Option String
  deriving DecidableEq, Repr, Inhabited

namespace Vertex

def of (p : Program) (declaration : NodeId) : Except Error Vertex :=
  match p.callable? declaration with
  | some d =>
    .ok { declaration, kind := d.kind, signature := d.signature, owner := p.ownerName? declaration }
  | none => .error (.illegalState (p.describe declaration ++ " is not a method or constructor"))

/-- Whether a vertex stands for a declaration: its own, or one with its signature below an
equally named owner. -/
def isFor (v : Vertex) (p : Program) (declaration : NodeId) : Bool :=
  v.declaration == declaration ||
    (p.signature? declaration == some v.signature && v.owner.isSome &&
      v.owner == p.ownerName? declaration)

/-- Vertex identity. -/
def same (v w : Vertex) : Bool :=
  v.declaration == w.declaration ||
    (v.signature == w.signature && v.owner.isSome && v.owner == w.owner)

/-- Feed a vertex to a hasher: its signature alone, whatever its owner. -/
def hashInto {σ : Type} (write : σ → String → σ) (state : σ) (v : Vertex) : σ :=
  write state v.signature

def display (v : Vertex) : String :=
  match v.owner with
  | some owner => owner ++ "." ++ v.signature
  | none => v.signature

end Vertex

end JavaCallGraph
