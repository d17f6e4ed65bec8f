import JavaCallGraph.Java.Extent

/-!
Syntax trees as a parser gives them.

A node has a kind, the place of its text and its children in their order. A child may stand in a
field of the node around it, and it may be a mere token, which has no name. Nothing is said here
about which kinds there are and what stands in them: a parser that goes on behind an error gives
nodes of any shape.
-/

namespace JavaCallGraph.Java

inductive Syntax where
  /-- The field is that of the node around this one. -/
  | node (kind : String) (field : Option String) (isNamed : Bool) (extent : Extent)
      (children : List Syntax)
  deriving Repr

namespace Syntax

instance : Inhabited Syntax := ⟨node "" none false {} []⟩

def kind : Syntax → String
  | node kind _ _ _ _ => kind

def field : Syntax → Option String
  | node _ field _ _ _ => field

def isNamed : Syntax → Bool
  | node _ _ isNamed _ _ => isNamed

def extent : Syntax → Extent
  | node _ _ _ extent _ => extent

def children : Syntax → List Syntax
  | node _ _ _ _ children => children

theorem sizeOf_lt_of_mem {t c : Syntax} (member : c ∈ t.children) : sizeOf c < sizeOf t := by
  obtain ⟨kind, field, isNamed, extent, children⟩ := t
  have below := List.sizeOf_lt_of_mem (show c ∈ children from member)
  simp only [node.sizeOf_spec]
  omega

def isComment (t : Syntax) : Bool := t.kind == "line_comment" || t.kind == "block_comment"

/-- The children that count: those with a name, comments left out. -/
def namedChildren (t : Syntax) : List Syntax := t.children.filter fun c => c.isNamed && !c.isComment

/-- The first child in a field. -/
def child? (t : Syntax) (field : String) : Option Syntax :=
  t.children.find? (·.field == some field)

/-- All children in a field. -/
def childrenIn (t : Syntax) (field : String) : List Syntax :=
  t.children.filter (·.field == some field)

end Syntax

/-! ### Nodes in their tree -/

/-- A node with the nodes around it, the next one first. -/
structure Located where
  node : Syntax
  above : List Syntax := []

namespace Located

def kind (n : Located) : String := n.node.kind

def extent (n : Located) : Extent := n.node.extent

/-- A child of a node. -/
def below (n : Located) (c : Syntax) : Located := { node := c, above := n.node :: n.above }

def parent? (n : Located) : Option Located :=
  match n.above with
  | [] => none
  | parent :: above => some { node := parent, above }

def namedChildren (n : Located) : List Located := n.node.namedChildren.map n.below

def child? (n : Located) (field : String) : Option Located := (n.node.child? field).map n.below

def childrenIn (n : Located) (field : String) : List Located :=
  (n.node.childrenIn field).map n.below

/-! ### What stands in a node is smaller -/

variable {n c : Located} {field : String}

theorem sizeOf_lt_of_mem_namedChildren (member : c ∈ n.namedChildren) :
    sizeOf c.node < sizeOf n.node := by
  obtain ⟨t, listed, rfl⟩ := List.mem_map.mp member
  exact Syntax.sizeOf_lt_of_mem (List.mem_filter.mp listed).1

theorem sizeOf_lt_of_child? (found : n.child? field = some c) : sizeOf c.node < sizeOf n.node := by
  obtain ⟨t, first, rfl⟩ := Option.map_eq_some_iff.mp found
  exact Syntax.sizeOf_lt_of_mem (List.mem_of_find?_eq_some first)

theorem sizeOf_lt_of_mem_childrenIn (member : c ∈ n.childrenIn field) :
    sizeOf c.node < sizeOf n.node := by
  obtain ⟨t, listed, rfl⟩ := List.mem_map.mp member
  exact Syntax.sizeOf_lt_of_mem (List.mem_filter.mp listed).1

end Located

end JavaCallGraph.Java
