import JavaCallGraph.Java.Grammar.Statement

/-!
The grammar of declarations.
-/

namespace JavaCallGraph.Java.Grammar

open Rule

/-! ### Types -/

def name : Rule := field "name" identifier

/-- The interfaces that a type implements. -/
def implemented : Rule :=
  optional (field "interfaces" (typeClause "super_interfaces" "implements"))

def permitted : Rule := optional (field "permits" (typeClause "permits" "permits"))

def classDeclaration : Rule :=
  node "class_declaration" (seqs [optional modifiers, word "class", name, typeParameters,
    optional (field "superclass" (node "superclass" (seq (word "extends") (symbol .type)))),
    implemented, permitted, field "body" classBody])

def interfaceDeclaration : Rule :=
  node "interface_declaration" (seqs [optional modifiers, word "interface", name, typeParameters,
    optional (typeClause "extends_interfaces" "extends"), permitted,
    field "body" (node "interface_body" (braced (many (symbol (.member .interfaceBody)))))])

def enumConstant : Rule :=
  node "enum_constant" (seqs [optional modifiers, name, optional arguments,
    optional (field "body" classBody)])

/-- Constants, then members behind a semicolon. -/
def enumBody : Rule :=
  node "enum_body" (braced (seqs [listed enumConstant, optional (word ","),
    optional (node "enum_body_declarations"
      (seq (word ";") (many (symbol (.member .classBody)))))]))

def enumDeclaration : Rule :=
  node "enum_declaration"
    (seqs [optional modifiers, word "enum", name, implemented, field "body" enumBody])

def annotationTypeDeclaration : Rule :=
  node "annotation_type_declaration" (seqs [optional modifiers, word "@", word "interface", name,
    field "body" (node "annotation_type_body" (braced (many (symbol (.member .annotationBody)))))])

/-- Whether `record` is followed by a name and its parameters. -/
def startsRecord : List Token → Bool
  | t :: u :: v :: _ => t.text == "record" && isName u && (v.text == "(" || v.text == "<")
  | _ => false

def recordDeclaration : Rule :=
  node "record_declaration" (seqs [optional modifiers, ahead startsRecord, word "record", name,
    typeParameters, field "parameters" parameters, implemented, field "body" classBody])

def typeDeclaration : Rule :=
  firstOf [classDeclaration, interfaceDeclaration, enumDeclaration, annotationTypeDeclaration,
    recordDeclaration]

/-! ### Callables -/

def thrown : Rule :=
  optional (node "throws" (seq (word "throws") (separated "," (symbol .type))))

/-- Whether `super` and an opening bracket come before the first semicolon. -/
def callsSuper : List Token → Bool
  | t :: u :: rest =>
    t.text != ";" && ((t.text == "super" && u.text == "(") || callsSuper (u :: rest))
  | _ => false

/-- `this(..)`, `super(..)` or `e.super(..)`. -/
def constructorInvocation : Rule :=
  node "explicit_constructor_invocation" (seqs [
    optional (seqs [ahead fun tokens => !startsWithOneOf ["<"] tokens, ahead callsSuper,
      field "object" primary, word "."]),
    optional (field "type_arguments" typeArguments),
    field "constructor" (either this super), arguments, word ";"])

def constructorBody : Rule :=
  node "constructor_body"
    (braced (seq (optional constructorInvocation) (many (symbol .statement))))

def constructorDeclaration : Rule :=
  node "constructor_declaration" (seqs [optional modifiers, typeParameters, name,
    field "parameters" parameters, thrown, field "body" constructorBody])

/-- A constructor without a parameter list. -/
def compactConstructorDeclaration : Rule :=
  node "compact_constructor_declaration" (seqs [optional modifiers, name, field "body" block])

def methodDeclaration : Rule :=
  node "method_declaration" (seqs [optional modifiers, typeParameters, annotations,
    field "type" plainType, name, field "parameters" parameters,
    optional (field "dimensions" dimensions), thrown, either (word ";") (field "body" block)])

/-! ### Members -/

/-- A field; those of an interface are constants. -/
def fieldDeclaration (kind : String) : Rule :=
  node kind (seqs [optional modifiers, field "type" plainType, declarators, word ";"])

/-- An element of an annotation type. -/
def elementDeclaration : Rule :=
  node "annotation_type_element_declaration" (seqs [optional modifiers, field "type" plainType,
    name, word "(", word ")", optional (field "dimensions" dimensions),
    optional (seq (word "default") (field "value" (symbol .value))), word ";"])

def staticInitializer : Rule := node "static_initializer" (seq (word "static") block)

def member : Body → Rule
  | .classBody =>
    firstOf [word ";", block, staticInitializer, typeDeclaration, constructorDeclaration,
      compactConstructorDeclaration, methodDeclaration, fieldDeclaration "field_declaration"]
  | .interfaceBody =>
    firstOf [word ";", typeDeclaration, methodDeclaration, fieldDeclaration "constant_declaration"]
  | .annotationBody =>
    firstOf [word ";", typeDeclaration, elementDeclaration, fieldDeclaration "constant_declaration"]

def statement : Rule := firstOf [wordedStatement, typeDeclaration, plainStatement]

/-! ### Files -/

def packageDeclaration : Rule :=
  node "package_declaration" (seqs [annotations, word "package", qualifiedName, word ";"])

def importDeclaration : Rule :=
  node "import_declaration" (seqs [word "import", optional (word "static"), qualifiedName,
    optional (seq (word ".") (leaf "asterisk" (·.text == "*"))), word ";"])

/-- The directives of a module are not told apart. -/
def moduleDeclaration : Rule :=
  node "module_declaration" (seqs [annotations, optional (word "open"), word "module",
    field "name" qualifiedName,
    field "body" (node "module_body" (braced (many (token (·.text != "\x7d")))))])

/-- What stands at the top level of a file. -/
def topLevel : Rule :=
  firstOf [packageDeclaration, importDeclaration, moduleDeclaration, wordedStatement,
    typeDeclaration, methodDeclaration, plainStatement]

def rule : Symbol → Rule
  | .expression => expression
  | .operand lambdas => operand lambdas
  | .value => value
  | .annotationUse => annotationUse
  | .type => type
  | .pattern => pattern
  | .statement => statement
  | .member body => member body

/-- Read the rules, nested at most `depth` deep. -/
def reader : (depth : Nat) → Symbol → Reader
  | 0, _ => fun _ => none
  | depth + 1, name => (rule name).read (reader depth) none

end JavaCallGraph.Java.Grammar

namespace JavaCallGraph.Java

/-- The syntax tree of a text without errors. At most three rules start at each token. -/
def Syntax.read? (text : String) : Option Syntax := do
  let tokens ← Token.readAll text
  let file := Rule.many Grammar.topLevel
  let (trees, last) ← file.read (Grammar.reader (3 * tokens.length + 3)) none { rest := tokens }
  if last.rest.isEmpty then
    return .node "program" none true { stop := last.last } trees
  else none

end JavaCallGraph.Java
