import JavaCallGraph.Point
import JavaCallGraph.Resolver

/-!
What a call graph asks about a program: resolution, class hierarchy and program points.

`reference` answers from the program's own declarations.
-/

namespace JavaCallGraph

structure Facts where
  /-- The declaration that a call names. -/
  resolve : NodeId → Except Error Resolution
  /-- The declaration of a type name written at a node. -/
  resolveTypeName : NodeId → String → Except Error NodeId
  staticType : NodeId → Except Error NodeId
  /-- A type and every type that transitively extends or implements it. -/
  subclassesOf : NodeId → List NodeId
  /-- The direct superclass. -/
  parentOf? : NodeId → Option NodeId
  /-- A declaration and every method that overrides it in a subtype of its owner. -/
  overriddenBy : NodeId → List NodeId
  /-- The declaration with the signature of the second node that an instance of the first would
  run. -/
  findBySignature : NodeId → NodeId → Except Error (Option NodeId)
  lookupBySignature? : QualifiedSignature → Option NodeId
  /-- The innermost point of a declaration that holds a call. -/
  containingPoint : NodeId → NodeId → Except Error ProgramPoint

namespace Facts

def reference (h : Hierarchy) (points : PointIndex) : Facts where
  resolve := Resolver.resolve h
  resolveTypeName := Resolver.resolveTypeName h
  staticType := Resolver.staticType h
  subclassesOf := h.subclassesOf
  parentOf? := h.parentOf?
  overriddenBy := h.overriddenBy
  findBySignature := h.findBySignature
  lookupBySignature? := h.lookupBySignature?
  containingPoint := points.containing

/-- The reference answers for a program. -/
def ofProgram (p : Program) : Facts := reference (Hierarchy.build p) (PointIndex.build p)

end Facts

end JavaCallGraph
