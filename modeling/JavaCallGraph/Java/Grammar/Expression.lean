import JavaCallGraph.Java.Grammar.Type

/-!
The grammar of expressions.

Operators are read from the left, whatever their precedence: how they group changes nothing that a
program keeps.
-/

namespace JavaCallGraph.Java.Grammar

open Rule

def parenthesized : Rule := node "parenthesized_expression" (bracketed (symbol .expression))

/-! ### Calls and creations -/

def arguments : Rule :=
  field "arguments" (node "argument_list" (bracketed (listed (symbol .expression))))

def classBody : Rule := node "class_body" (braced (many (symbol (.member .classBody))))

/-- The creation of an object from its `new` on. -/
def newObject : Rule :=
  seqs [word "new", annotations, optional typeArguments, annotations, field "type" simpleType,
    arguments, optional classBody]

/-- `[e]` or `[]`, with the annotations before it. -/
def dimension : Rule :=
  field "dimensions" (either
    (node "dimensions_expr" (seqs [annotations, word "[", symbol .expression, word "]"]))
    (node "dimensions" (seqs [annotations, word "[", word "]"])))

def newArray : Rule :=
  node "array_creation_expression" (seqs [word "new", annotations, field "type" simpleType,
    several dimension, optional (field "value" arrayInitializer)])

/-- The name and the arguments of a method call. -/
def namedCall : Rule := seq (field "name" identifier) arguments

/-! ### Selectors -/

/-- Behind `::`: type arguments and a name or `new`. -/
def referenceTail : Rule :=
  seqs [word "::", optional typeArguments, either (word "new") identifier]

/-- A call behind a dot, with type arguments or without. -/
def calledName : Rule := seq (optional (field "type_arguments" typeArguments)) namedCall

/-- A step behind a primary expression. -/
def selector : Rule :=
  firstOf [
    fold "array_access" (some "array")
      (seqs [word "[", field "index" (symbol .expression), word "]"]),
    fold "method_reference" none referenceTail,
    fold "update_expression" none (wordOf ["++", "--"]),
    fold "object_creation_expression" none (seq (word ".") newObject),
    fold "class_literal" none (seq (word ".") (word "class")),
    fold "field_access" (some "object") (seq (word ".") (field "field" this)),
    fold "method_invocation" (some "object") (seqs [word ".", super, word ".", calledName]),
    fold "field_access" (some "object")
      (seqs [word ".", super, word ".", field "field" identifier]),
    fold "method_invocation" (some "object") (seq (word ".") calledName),
    fold "field_access" (some "object") (seq (word ".") (field "field" identifier)),
    fold "template_expression" (some "template_processor") (seq (word ".")
      (field "template_argument" (leaf "string_literal" (·.kind == .literal "string_literal"))))]

/-! ### Primary expressions -/

/-- Whether a dotted name goes on with an opening angle bracket, an annotation or an empty pair of
square brackets. -/
def namesType : List Token → Bool
  | t :: u :: rest =>
    isName t &&
      (u.text == "<" || u.text == "@" || (u.text == "[" && startsWith ["]"] rest) ||
        (u.text == "." && namesType rest))
  | _ => false

/-- Whether a type may come next that is no name. -/
def mayBeType (tokens : List Token) : Bool :=
  namesType tokens ||
    tokens.head?.any fun t => t.text == "@" || isPrimitive t

/-- A type before `.class` or `::`. -/
def typeReference : Rule :=
  either (node "class_literal" (seqs [type, word ".", word "class"]))
    (node "method_reference" (seq type referenceTail))

def literalKinds : List String :=
  ["decimal_integer_literal", "hex_integer_literal", "octal_integer_literal",
    "binary_integer_literal", "decimal_floating_point_literal", "hex_floating_point_literal",
    "string_literal", "character_literal", "true", "false"]

def literal : Rule := firstOf (literalKinds.map fun kind => leaf kind (·.kind == .literal kind))

/-- A primary expression without selectors. -/
def primaryStart : Rule :=
  firstOf [
    literal,
    parenthesized,
    leaf "null_literal" (·.text == "null"),
    this,
    seq super (ahead (startsWithOneOf [".", "::"])),
    node "object_creation_expression" newObject,
    newArray,
    node "method_invocation" namedCall,
    identifier]

/-- A primary expression with its selectors. -/
def primary : Rule :=
  chain false (either (seq (ahead mayBeType) typeReference) primaryStart) selector

/-! ### Lambdas -/

/-- The tokens behind the bracket that closes the innermost of `depth` open ones. -/
def afterBracket : (depth : Nat) → List Token → List Token
  | _, [] => []
  | 0, rest => rest
  | depth + 1, t :: rest =>
    if t.text == "(" then afterBracket (depth + 2) rest
    else if t.text == ")" then afterBracket depth rest
    else afterBracket (depth + 1) rest

/-- Whether tokens are the parameters of a lambda and its arrow. -/
def startsLambda : List Token → Bool
  | t :: rest =>
    if t.text == "(" then startsWith ["->"] (afterBracket 1 rest)
    else isName t && startsWith ["->"] rest
  | [] => false

def lambda : Rule :=
  seq (ahead startsLambda) (node "lambda_expression" (seqs [
    field "parameters" (firstOf [
      node "inferred_parameters" (bracketed (separated "," identifier)), parameters, identifier]),
    word "->",
    field "body" (either (seq (ahead (startsWith ["\x7b"])) (symbol .statement))
      (symbol .expression))]))

/-! ### Casts -/

/-- Whether a token can only start an operand, and never go on with an expression. -/
def startsOperand (t : Token) : Bool :=
  match t.kind with
  | .literal _ => true
  | .symbol => ["(", "!", "~"].contains t.text
  | .word =>
    isName t || isPrimitive t || ["new", "this", "super", "switch", "null"].contains t.text

/-- Whether the tokens up to the closing bracket are names joined by dots or ampersands. -/
def namesOnly : List Token → Bool
  | [] => false
  | t :: rest => t.text == ")" || ((isName t || t.text == "." || t.text == "&") && namesOnly rest)

/-- Whether an operand follows names in brackets: these alone may be an expression. -/
def operandFollows : List Token → Bool
  | [] => false
  | t :: rest =>
    if t.text == "++" || t.text == "--" then rest.head?.any startsOperand else startsOperand t

/-- A type between brackets, which satisfies a condition, and the operand behind it. -/
def castWith (inside behind : List Token → Bool) (lambdas : Bool) : Rule :=
  node "cast_expression" (seqs [word "(", ahead inside, field "type" type,
    many (seq (word "&") (field "type" type)), word ")", ahead behind,
    field "value" (symbol (.operand lambdas))])

def cast (lambdas : Bool) : Rule :=
  either (castWith namesOnly operandFollows lambdas)
    (castWith (fun tokens => !namesOnly tokens) (fun tokens => !tokens.isEmpty) lambdas)

/-! ### Operators -/

def binaryOperators : List String :=
  ["+", "-", "*", "/", "%", "&&", "||", "==", "!=", "<", "<=", "<<", "&", "|", "^"]

def assignmentOperators : List String :=
  ["=", "+=", "-=", "*=", "/=", "&=", "|=", "^=", "%=", "<<="]

/-- A token with the given text that directly follows the one before. -/
def adjacent (text : String) : Rule := token fun t => t.isAdjacent && t.text == text

/-- An operator between two operands; a run of closing angle brackets is one. -/
def binaryOperator : Rule :=
  either (seqs [word ">", many (adjacent ">"), optional (adjacent "=")]) (wordOf binaryOperators)

/-- A step behind an operand: an operator, or the words of a test, and what stands behind it. -/
def operation (lambdas : Bool) : Rule :=
  firstOf [
    fold "ternary_expression" (some "condition") (seqs [word "?",
      field "consequence" (symbol .expression), word ":",
      field "alternative" (symbol (.operand lambdas))]),
    fold "instanceof_expression" (some "left") (seqs [word "instanceof", optional (word "final"),
      annotations, either (field "pattern" (symbol .pattern)) (field "right" plainType)]),
    fold "assignment_expression" (some "left")
      (seq (wordOf assignmentOperators) (field "right" (symbol (.operand lambdas)))),
    fold "binary_expression" (some "left")
      (seq binaryOperator (field "right" (symbol (.operand lambdas))))]

/-- Operands and the operators between them. Where an arrow ends the expression, it does not make
a name before it a lambda. -/
def operations (lambdas : Bool) : Rule := chain false (symbol (.operand lambdas)) (operation lambdas)

def expression : Rule := operations true

/-! ### Switches -/

def endsLabel : Rule := ahead (startsWithOneOf [":", "->", "when"])

/-- What stands behind `case`: a pattern of a type and a name, expressions, or the pattern of a
record. -/
def caseItems : Rule :=
  firstOf [
    seq typePattern endsLabel,
    seq (separated "," (either (word "default") (operations false))) endsLabel,
    symbol .pattern]

def label : Rule :=
  node "switch_label" (either (word "default") (seqs [word "case", caseItems,
    optional (node "guard" (seq (word "when") (operations false)))]))

/-- A block, a `throw` or an expression behind an arrow. -/
def arrowBody : Rule :=
  either (seq (ahead (startsWithOneOf ["\x7b", "throw"])) (symbol .statement))
    (node "expression_statement" (seq (symbol .expression) (word ";")))

/-- A label and what it leads to. -/
def switchEntry : Rule :=
  either (node "switch_rule" (seqs [label, word "->", arrowBody]))
    (node "switch_block_statement_group" (seqs [label, word ":", many (symbol .statement)]))

def switch : Rule :=
  node "switch_expression" (seqs [word "switch", field "condition" parenthesized,
    field "body" (node "switch_block" (braced (many switchEntry)))])

/-! ### Operands -/

/-- An operand without a sign before it. -/
def unsigned (lambdas : Bool) : Rule :=
  firstOf ((if lambdas then [lambda] else []) ++ [switch, cast lambdas, primary])

def operand (lambdas : Bool) : Rule :=
  firstOf [
    node "update_expression" (seq (wordOf ["++", "--"]) (symbol (.operand lambdas))),
    node "unary_expression" (seq (wordOf ["+", "-", "!", "~"])
      (field "operand" (symbol (.operand lambdas)))),
    unsigned lambdas]

end JavaCallGraph.Java.Grammar
