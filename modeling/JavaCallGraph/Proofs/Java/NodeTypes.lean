import JavaCallGraph.Proofs.Java.Arrangement
import JavaCallGraph.Proofs.Java.Sketch
import Mathlib

/-!
The kinds of the grammar and what stands in their nodes.

A table lists, kind by kind, the fields of a node and the kinds of the children in them. It covers the
kinds that lowering takes apart, and those that it leaves aside because no call stands in them outside
of annotations. Of all other nodes lowering keeps every child, so nothing needs to be known about
them.
-/

namespace JavaCallGraph.Java

/-! ### Tables -/

/-- The children that a node may have in one field. -/
structure Slot where
  field : Option String
  kinds : List String
  isMultiple : Bool := false

abbrev NodeTypes := List (String × List Slot)

namespace Slot

def one (field : String) (kinds : List String) : Slot := { field := some field, kinds }

def several (field : String) (kinds : List String) : Slot :=
  { field := some field, kinds, isMultiple := true }

/-- Children in no field. -/
def plain (kinds : List String) : Slot := { field := none, kinds, isMultiple := true }

def admits (s : Slot) (field : Option String) (kind : String) : Bool :=
  s.field == field && s.kinds.contains kind

end Slot

namespace Syntax

/-- Whether a node has a name and is no comment. -/
def counts (t : Syntax) : Bool := t.isNamed && !t.isComment

/-- Whether the children of a node are such as a table lists for its kind. -/
def fits (types : NodeTypes) (t : Syntax) : Bool :=
  match types.lookup t.kind with
  | none => true
  | some slots =>
    t.children.all (fun c => c.counts || c.field.isNone) &&
    t.namedChildren.all (fun c => slots.any (·.admits c.field c.kind)) &&
    slots.all fun s => s.isMultiple || (t.namedChildren.filter (·.field == s.field)).length ≤ 1

theorem of_fits {types : NodeTypes} {t : Syntax} {slots : List Slot}
    (listed : types.lookup t.kind = some slots) (fits : t.fits types) :
    (∀ c ∈ t.children, c.counts ∨ c.field = none) ∧
      (∀ c ∈ t.namedChildren, ∃ s ∈ slots, s.field = c.field ∧ c.kind ∈ s.kinds) ∧
      ∀ s ∈ slots, s.isMultiple ∨ (t.namedChildren.filter (·.field == s.field)).length ≤ 1 := by
  rw [Syntax.fits, listed] at fits
  simpa [Slot.admits, and_assoc] using fits

end Syntax

/-! ### The grammar -/

namespace NodeTypes

def annotationKinds : List String := ["annotation", "marker_annotation"]

def nameKinds : List String := ["identifier", "scoped_identifier"]

def typeKinds : List String :=
  ["void_type", "integral_type", "floating_point_type", "boolean_type", "type_identifier",
    "scoped_type_identifier", "generic_type", "array_type", "annotated_type"]

/-- The kinds of literals whose nodes have no children. -/
def plainLiterals : List String :=
  integerKinds ++ floatKinds ++ ["character_literal", "text_block", "true", "false"]

/-- The kinds of expressions, with that of `super` before a dot. -/
def expressionKinds : List String :=
  plainLiterals ++
  ["string_literal", "null_literal", "class_literal", "this", "super", "identifier",
    "parenthesized_expression", "object_creation_expression", "field_access", "array_access",
    "method_invocation", "method_reference", "array_creation_expression", "template_expression",
    "assignment_expression", "binary_expression", "instanceof_expression", "lambda_expression",
    "ternary_expression", "update_expression", "unary_expression", "cast_expression",
    "switch_expression"]

open Slot

/-- Names, types and parameters: no call stands in them but in annotations and in the values that a
variadic parameter is given. -/
def aside : NodeTypes :=
  [("identifier", []), ("asterisk", []), ("underscore_pattern", []), ("this", []), ("super", []),
    ("scoped_identifier", [one "scope" nameKinds, one "name" ["identifier"]]),
    ("marker_annotation", [one "name" nameKinds]),
    ("modifiers", [plain annotationKinds]),
    ("void_type", []), ("integral_type", []), ("floating_point_type", []), ("boolean_type", []),
    ("type_identifier", []),
    ("scoped_type_identifier", [plain (typeKinds ++ annotationKinds)]),
    ("generic_type", [plain (typeKinds ++ ["type_arguments"])]),
    ("array_type", [one "element" typeKinds, one "dimensions" ["dimensions"]]),
    ("annotated_type", [plain (annotationKinds ++ typeKinds)]),
    ("dimensions", [plain annotationKinds]),
    ("type_arguments", [plain (typeKinds ++ ["wildcard"])]),
    ("wildcard", [plain (annotationKinds ++ typeKinds ++ ["super"])]),
    ("type_parameters", [plain ["type_parameter"]]),
    ("type_parameter", [plain (annotationKinds ++ ["type_identifier", "type_bound"])]),
    ("type_bound", [plain typeKinds]), ("type_list", [plain typeKinds]),
    ("superclass", [plain typeKinds]), ("super_interfaces", [plain ["type_list"]]),
    ("extends_interfaces", [plain ["type_list"]]), ("permits", [plain ["type_list"]]),
    ("throws", [plain typeKinds]),
    ("formal_parameters", [plain ["receiver_parameter", "formal_parameter", "spread_parameter"]]),
    ("receiver_parameter",
      [plain (annotationKinds ++ ["modifiers", "identifier", "this"] ++ typeKinds)]),
    ("formal_parameter", [plain ["modifiers"], one "type" typeKinds,
      one "name" ["identifier", "underscore_pattern", "this"], one "dimensions" ["dimensions"]]),
    ("spread_parameter",
      [plain (annotationKinds ++ ["modifiers", "variable_declarator"] ++ typeKinds)]),
    ("string_fragment", []), ("multiline_string_fragment", []), ("escape_sequence", [])]

def modifiers : Slot := plain ["modifiers"]

def name : Slot := one "name" ["identifier"]

def typeParameters : Slot := one "type_parameters" ["type_parameters"]

def arguments : Slot := one "arguments" ["argument_list"]

/-- Declarations: of these lowering keeps the bodies and the values. -/
def declarations : NodeTypes :=
  [("package_declaration", [plain (annotationKinds ++ nameKinds)]),
    ("import_declaration", [plain (nameKinds ++ ["asterisk"])]),
    ("class_declaration", [modifiers, name, typeParameters, one "superclass" ["superclass"],
      one "interfaces" ["super_interfaces"], one "permits" ["permits"],
      one "body" ["class_body"]]),
    ("interface_declaration", [plain ["modifiers", "extends_interfaces"], name, typeParameters,
      one "permits" ["permits"], one "body" ["interface_body"]]),
    ("enum_declaration",
      [modifiers, name, one "interfaces" ["super_interfaces"], one "body" ["enum_body"]]),
    ("record_declaration", [modifiers, name, typeParameters,
      one "parameters" ["formal_parameters"], one "interfaces" ["super_interfaces"],
      one "body" ["class_body"]]),
    ("annotation_type_declaration", [modifiers, name, one "body" ["annotation_type_body"]]),
    ("method_declaration", [plain (annotationKinds ++ ["modifiers", "throws"]), typeParameters,
      one "type" typeKinds, name, one "parameters" ["formal_parameters"],
      one "dimensions" ["dimensions"], one "body" ["block"]]),
    ("constructor_declaration", [plain ["modifiers", "throws"], typeParameters, name,
      one "parameters" ["formal_parameters"], one "body" ["constructor_body"]]),
    ("compact_constructor_declaration", [modifiers, name, one "body" ["block"]]),
    ("enum_constant", [modifiers, name, arguments, one "body" ["class_body"]]),
    ("variable_declarator", [one "name" ["identifier", "underscore_pattern"],
      one "dimensions" ["dimensions"],
      one "value" (expressionKinds ++ annotationKinds ++ ["array_initializer"])])] ++
  ["field_declaration", "constant_declaration", "local_variable_declaration"].map
    (·, [modifiers, one "type" typeKinds, several "declarator" ["variable_declarator"]])

/-- Calls, and the expressions that lowering takes apart where they are operands. -/
def operands : NodeTypes :=
  [("argument_list", [plain expressionKinds]),
    ("method_invocation", [one "object" expressionKinds, plain ["super"],
      one "type_arguments" ["type_arguments"], name, arguments]),
    ("object_creation_expression",
      [plain (expressionKinds ++ annotationKinds ++ ["type_arguments", "class_body"]),
        one "type_arguments" ["type_arguments"], one "type" typeKinds, arguments]),
    ("explicit_constructor_invocation", [one "object" expressionKinds,
      one "type_arguments" ["type_arguments"], one "constructor" ["this", "super"], arguments]),
    ("field_access",
      [one "object" expressionKinds, plain ["super"], one "field" ["identifier", "this"]]),
    ("cast_expression", [several "type" typeKinds, one "value" expressionKinds]),
    ("parenthesized_expression", [{ field := none, kinds := expressionKinds }]),
    ("string_literal", [plain
      ["string_fragment", "multiline_string_fragment", "escape_sequence", "string_interpolation"]])] ++
  plainLiterals.map (·, [])

def grammar : NodeTypes := operands ++ declarations ++ aside

end NodeTypes

/-! ### Calls -/

def callKinds : List (String × CallKind) :=
  [("method_invocation", .methodCall), ("object_creation_expression", .objectCreation),
    ("explicit_constructor_invocation", .constructorInvocation)]

namespace Syntax

/-- The calls at a node itself: one or none. -/
def ownCall (t : Syntax) : List (CallKind × Span) :=
  ((callKinds.lookup t.kind).map (·, t.extent.span)).toList

mutual

/-- All calls in a tree, each with its kind and its place. -/
def calls : Syntax → List (CallKind × Span)
  | .node kind field isNamed extent children =>
    ownCall (.node kind field isNamed extent children) ++ callsIn children

def callsIn : List Syntax → List (CallKind × Span)
  | [] => []
  | t :: rest => calls t ++ callsIn rest

end

theorem callsIn_eq (trees : List Syntax) : callsIn trees = trees.flatMap calls := by
  induction trees with
  | nil => rfl
  | cons t rest ih => rw [callsIn, ih, List.flatMap_cons]

theorem calls_eq (t : Syntax) : t.calls = t.ownCall ++ t.children.flatMap calls := by
  obtain ⟨kind, field, isNamed, extent, children⟩ := t
  rw [calls, callsIn_eq]
  rfl

/-- Whether a node is such as the grammar has it. Tokens and comments have nothing in them. -/
def fitsGrammar (t : Syntax) : Bool :=
  (t.counts || (t.children.isEmpty && t.ownCall.isEmpty)) && t.fits NodeTypes.grammar

theorem flatMap_calls_filter {trees : List Syntax} (each : ∀ t ∈ trees, t.everywhere fitsGrammar) :
    trees.flatMap calls = (trees.filter counts).flatMap calls := by
  induction trees with
  | nil => rfl
  | cons t rest ih =>
    obtain ⟨here, later⟩ := List.forall_mem_cons.mp each
    rw [List.flatMap_cons, ih later, List.filter_cons]
    cases counts : t.counts with
    | true => rfl
    | false =>
      have leaf := (everywhere_iff.mp here).1
      rw [fitsGrammar, counts, Bool.and_eq_true, Bool.false_or, Bool.and_eq_true,
        List.isEmpty_iff, List.isEmpty_iff] at leaf
      rw [calls_eq, leaf.1.1, leaf.1.2]
      rfl

end Syntax

/-! ### Nodes of grammatical trees -/

theorem toList_head? {α : Type} {l : List α} (short : l.length ≤ 1) : l.head?.toList = l := by
  cases l with
  | nil => rfl
  | cons x rest =>
    obtain rfl : rest = [] := by simpa using short
    rfl

namespace Located

/-- Every node of the tree is such as the grammar has it. -/
def Grammatical (n : Located) : Prop := n.node.everywhere Syntax.fitsGrammar

namespace Grammatical

variable {n c : Located} {slots : List Slot} {field : String}

theorem child (grammatical : n.Grammatical) {t : Syntax} (among : t ∈ n.node.children) :
    (n.below t).Grammatical :=
  (Syntax.everywhere_iff.mp grammatical).2 t among

theorem namedChild (grammatical : n.Grammatical) (among : c ∈ n.namedChildren) :
    c.Grammatical := by
  obtain ⟨t, listed, rfl⟩ := List.mem_map.mp among
  exact grammatical.child (List.mem_filter.mp listed).1

theorem child? (grammatical : n.Grammatical) (found : n.child? field = some c) :
    c.Grammatical := by
  obtain ⟨t, first, rfl⟩ := Option.map_eq_some_iff.mp found
  exact grammatical.child (List.mem_of_find?_eq_some first)

theorem within (grammatical : n.Grammatical) (inside : n.Within c) : c.Grammatical := by
  induction inside with
  | refl => exact grammatical
  | child _ among ih => exact ih.child among

/-- What the table says of the children of a node. -/
theorem fits (grammatical : n.Grammatical) (listed : NodeTypes.grammar.lookup n.kind = some slots) :
    (∀ t ∈ n.node.children, t.counts ∨ t.field = none) ∧
      (∀ t ∈ n.node.namedChildren, ∃ s ∈ slots, s.field = t.field ∧ t.kind ∈ s.kinds) ∧
      ∀ s ∈ slots, s.isMultiple ∨
        (n.node.namedChildren.filter (·.field == s.field)).length ≤ 1 := by
  have here := (Syntax.everywhere_iff.mp grammatical).1
  rw [Syntax.fitsGrammar, Bool.and_eq_true] at here
  exact Syntax.of_fits listed here.2

/-- Only nodes that count have calls in them. -/
theorem calls_eq (grammatical : n.Grammatical) :
    n.node.calls = n.node.ownCall ++ n.namedChildren.flatMap (·.node.calls) := by
  rw [Syntax.calls_eq, namedChildren, List.flatMap_map]
  congr 1
  exact Syntax.flatMap_calls_filter (Syntax.everywhere_iff.mp grammatical).2

/-- A child in a field counts, so nothing is missing among those that count. -/
theorem filter_field (grammatical : n.Grammatical)
    (listed : NodeTypes.grammar.lookup n.kind = some slots) (field : String) :
    n.namedChildren.filter (·.node.field == some field) = n.childrenIn field := by
  obtain ⟨uncounted, -, -⟩ := grammatical.fits listed
  rw [namedChildren, List.filter_map, childrenIn, Syntax.childrenIn]
  change (n.node.namedChildren.filter (·.field == some field)).map n.below = _
  rw [Syntax.namedChildren, List.filter_filter]
  congr 1
  refine List.filter_congr fun t among => ?_
  rcases uncounted t among with counts | none
  · rw [Syntax.counts] at counts
    rw [counts, Bool.and_true]
  · simp [none]

/-- In a field for one child there is the first or none. -/
theorem childrenIn_eq (grammatical : n.Grammatical)
    (listed : NodeTypes.grammar.lookup n.kind = some slots)
    (single : ∀ s ∈ slots, s.field = some field → s.isMultiple = false) :
    n.childrenIn field = (n.child? field).toList := by
  obtain ⟨-, slotOf, once⟩ := grammatical.fits listed
  have first : n.child? field = (n.childrenIn field).head? := by
    rw [Located.child?, Syntax.child?, childrenIn, Syntax.childrenIn, ← List.head?_filter,
      List.head?_map]
  have short : (n.childrenIn field).length ≤ 1 := by
    rw [← grammatical.filter_field listed, namedChildren, List.filter_map, List.length_map]
    change (n.node.namedChildren.filter (·.field == some field)).length ≤ 1
    cases found : n.node.namedChildren.filter (·.field == some field) with
    | nil => exact Nat.zero_le 1
    | cons t rest =>
      have member : t ∈ n.node.namedChildren.filter (·.field == some field) :=
        found ▸ List.mem_cons_self
      obtain ⟨among, inField⟩ := List.mem_filter.mp member
      obtain ⟨s, slot, same, -⟩ := slotOf t among
      rw [eq_of_beq inField] at same
      have short := (once s slot).resolve_left (by simp [single s slot same])
      rwa [same, found] at short
  rw [first, toList_head? short]

end Grammatical

end Located

end JavaCallGraph.Java
