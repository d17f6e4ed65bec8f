import JavaCallGraph.Java.Rule

/-!
The grammar of names, annotations, modifiers, types, parameters and patterns.
-/

namespace JavaCallGraph.Java.Grammar

open Rule

/-! ### Names -/

/-- Words that are never names. -/
def keywords : List String :=
  ["abstract", "assert", "boolean", "break", "byte", "case", "catch", "char", "class", "continue",
    "default", "do", "double", "else", "enum", "extends", "final", "finally", "float", "for", "if",
    "implements", "import", "instanceof", "int", "interface", "long", "native", "new", "null",
    "package", "private", "protected", "public", "return", "short", "static", "strictfp", "super",
    "switch", "synchronized", "this", "throw", "throws", "transient", "try", "void", "volatile",
    "while"]

def isName (t : Token) : Bool := t.kind == .word && !keywords.contains t.text

def identifier : Rule := leaf "identifier" isName

def this : Rule := leaf "this" (·.text == "this")

def super : Rule := leaf "super" (·.text == "super")

/-- Whether the tokens ahead have the given texts. -/
def startsWith : List String → List Token → Bool
  | [], _ => true
  | s :: more, t :: rest => t.text == s && startsWith more rest
  | _ :: _, [] => false

/-- Whether the next token has one of the given texts. -/
def startsWithOneOf (texts : List String) (tokens : List Token) : Bool :=
  tokens.head?.any fun t => texts.contains t.text

/-- `a.b.c` -/
def qualifiedName : Rule :=
  chain false identifier
    (fold "scoped_identifier" (some "scope") (seq (word ".") (field "name" identifier)))

/-! ### Annotations -/

/-- An argument of an annotation: a value, or a name and a value. -/
def annotationArgument : Rule :=
  either
    (node "element_value_pair"
      (seqs [field "key" identifier, word "=", field "value" (symbol .value)]))
    (symbol .value)

def annotationUse : Rule :=
  either
    (node "annotation" (seqs [word "@", field "name" qualifiedName, field "arguments"
      (node "annotation_argument_list" (bracketed (listed annotationArgument)))]))
    (node "marker_annotation" (seqs [word "@", field "name" qualifiedName]))

/-- Values between braces, where a comma may stand last. -/
def arrayInitializer : Rule :=
  node "array_initializer" (braced (seq (listed (symbol .value)) (optional (word ","))))

def value : Rule := firstOf [symbol .annotationUse, arrayInitializer, symbol .expression]

def annotations : Rule := many (symbol .annotationUse)

/-! ### Modifiers -/

def plainModifiers : List String :=
  ["public", "protected", "private", "abstract", "static", "final", "strictfp", "native",
    "transient", "volatile"]

/-- What may follow the modifier `sealed`. -/
def afterSealed : List String := plainModifiers ++ ["class", "interface", "@"]

/-- A modifier that is a word. Some of these words mean it only before certain tokens. -/
def modifierWord : Rule :=
  firstOf [
    wordOf plainModifiers,
    seq (word "default") (ahead fun tokens => !startsWithOneOf [":", "->"] tokens),
    seq (word "synchronized") (ahead fun tokens => !startsWith ["("] tokens),
    seq (word "sealed") (ahead (startsWithOneOf afterSealed)),
    seqs [word "non", word "-", word "sealed"]]

def modifiers : Rule := node "modifiers" (several (either (symbol .annotationUse) modifierWord))

/-! ### Types -/

/-- The types that are words of their own, by kind. -/
def primitives : List (String × List String) :=
  [("integral_type", ["byte", "short", "int", "long", "char"]),
    ("floating_point_type", ["float", "double"]), ("boolean_type", ["boolean"]),
    ("void_type", ["void"])]

def isPrimitive (t : Token) : Bool := primitives.any (·.2.contains t.text)

def primitiveType : Rule :=
  firstOf (primitives.map fun p => leaf p.1 fun t => p.2.contains t.text)

def typeIdentifier : Rule := leaf "type_identifier" isName

/-- `[]`, once or more often. -/
def dimensions : Rule := node "dimensions" (several (seqs [annotations, word "[", word "]"]))

def wildcard : Rule :=
  node "wildcard" (seqs [annotations, word "?",
    optional (seq (wordOf ["extends", "super"]) (symbol .type))])

def typeArguments : Rule :=
  node "type_arguments" (seqs [word "<", listed (either wildcard (symbol .type)), word ">"])

/-- A step that gives a type its arguments. -/
def applied : Rule := fold "generic_type" none typeArguments

/-- A type without annotations before it and dimensions behind it. -/
def simpleType : Rule :=
  either primitiveType
    (chain false (chain true typeIdentifier applied)
      (chain true
        (fold "scoped_type_identifier" none (seqs [word ".", annotations, typeIdentifier])) applied))

/-- A type without annotations before it. -/
def plainType : Rule :=
  chain true simpleType (fold "array_type" (some "element") (field "dimensions" dimensions))

def type : Rule :=
  either (node "annotated_type" (seq (several (symbol .annotationUse)) plainType)) plainType

def typeParameter : Rule :=
  node "type_parameter" (seqs [annotations, typeIdentifier,
    optional (node "type_bound" (seq (word "extends") (separated "&" (symbol .type))))])

/-- `<T extends A & B, U>` or nothing. -/
def typeParameters : Rule :=
  optional (field "type_parameters"
    (node "type_parameters" (seqs [word "<", separated "," typeParameter, word ">"])))

/-- Types after a word. -/
def typeClause (kind clause : String) : Rule :=
  node kind (seq (word clause) (node "type_list" (separated "," (symbol .type))))

/-! ### Parameters -/

/-- What stands behind the type of a parameter. A dot would make the name the start of a receiver. -/
def parameterName (name : Rule) : Rule :=
  seqs [field "name" name, ahead fun tokens => !startsWith ["."] tokens,
    optional (field "dimensions" dimensions)]

/-- Behind modifiers the name of a parameter may be `this`. -/
def formalParameter : Rule :=
  either
    (node "formal_parameter"
      (seqs [modifiers, field "type" plainType, parameterName (either this identifier)]))
    (node "formal_parameter" (seq (field "type" plainType) (parameterName identifier)))

def spreadParameter : Rule :=
  node "spread_parameter" (seqs [optional modifiers, plainType, word "...", annotations,
    node "variable_declarator" (seq (field "name" identifier)
      (optional (field "dimensions" dimensions)))])

/-- `this` or `Outer.this` in the place of a name. -/
def receiverParameter : Rule :=
  node "receiver_parameter"
    (seqs [optional modifiers, plainType, many (seq identifier (word ".")), this])

def parameters : Rule :=
  node "formal_parameters"
    (bracketed (listed (firstOf [spreadParameter, formalParameter, receiverParameter])))

/-! ### Patterns -/

/-- A type and a name. -/
def typePattern : Rule := node "type_pattern" (seq plainType identifier)

/-- A type followed by the patterns of a record's components or by a name. -/
def pattern : Rule :=
  either
    (node "record_pattern" (seq plainType (node "record_pattern_body" (bracketed (listed
      (either (symbol .pattern) (leaf "underscore_pattern" (·.text == "_"))))))))
    typePattern

end JavaCallGraph.Java.Grammar
