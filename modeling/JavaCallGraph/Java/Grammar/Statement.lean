import JavaCallGraph.Java.Grammar.Expression

/-!
The grammar of statements, without the declarations of types among them.
-/

namespace JavaCallGraph.Java.Grammar

open Rule

/-! ### Variables -/

/-- Declared names with their values. -/
def declarators : Rule :=
  separated "," (field "declarator" (node "variable_declarator" (seqs [
    field "name" identifier, optional (field "dimensions" dimensions),
    optional (seq (word "=") (field "value" (symbol .value)))])))

/-- Words that start a statement of their own and are no type there. -/
def statementWords : List String := ["yield", "record", "module", "open", "sealed", "with"]

def localVariable : Rule :=
  node "local_variable_declaration" (seqs [optional modifiers,
    ahead fun tokens => !startsWithOneOf statementWords tokens,
    field "type" plainType, declarators, word ";"])

/-- The modifiers, type and name of a variable that a statement binds. -/
def boundName : Rule :=
  seqs [optional modifiers, field "type" plainType, field "name" identifier,
    optional (field "dimensions" dimensions)]

/-! ### Forms of statements -/

def block : Rule := node "block" (braced (many (symbol .statement)))

def body : Rule := field "body" (symbol .statement)

def ifStatement : Rule :=
  node "if_statement" (seqs [word "if", field "condition" parenthesized,
    field "consequence" (symbol .statement),
    optional (seq (word "else") (field "alternative" (symbol .statement)))])

def whileStatement : Rule :=
  node "while_statement" (seqs [word "while", field "condition" parenthesized, body])

def doStatement : Rule :=
  node "do_statement" (seqs [word "do", body, word "while", field "condition" parenthesized,
    word ";"])

/-- `for (T x : e)` and the statement behind it. -/
def enhancedForStatement : Rule :=
  node "enhanced_for_statement" (seqs [word "for", word "(", boundName, word ":",
    field "value" (symbol .expression), word ")", body])

def forStatement : Rule :=
  node "for_statement" (seqs [word "for", word "(",
    field "init" (either localVariable (seq (listed (symbol .expression)) (word ";"))),
    optional (field "condition" (symbol .expression)), word ";",
    field "update" (listed (symbol .expression)), word ")", body])

def catchClause : Rule :=
  node "catch_clause" (seqs [word "catch", word "(", node "catch_formal_parameter" (seqs [
    optional modifiers, node "catch_type" (separated "|" plainType), field "name" identifier,
    optional (field "dimensions" dimensions)]), word ")", field "body" block])

/-- The clauses behind a tried block. -/
def handlers : Rule :=
  seq (many catchClause) (optional (node "finally_clause" (seq (word "finally") block)))

/-- A resource: a variable with a value, or an expression for one that exists. -/
def resource : Rule :=
  node "resource" (either
    (seqs [boundName, word "=", field "value" (symbol .expression)]) (symbol .expression))

def tryStatement : Rule := node "try_statement" (seqs [word "try", field "body" block, handlers])

def tryWithResourcesStatement : Rule :=
  node "try_with_resources_statement" (seqs [word "try",
    field "resources" (node "resource_specification"
      (bracketed (seq (separated ";" resource) (optional (word ";"))))),
    field "body" block, handlers])

/-- A word, an expression that may be missing, and a semicolon. -/
def wordStatement (kind text : String) : Rule :=
  node kind (seqs [word text, optional (symbol .expression), word ";"])

def assertStatement : Rule :=
  node "assert_statement" (seqs [word "assert", separated ":" (symbol .expression), word ";"])

def synchronizedStatement : Rule :=
  node "synchronized_statement" (seqs [word "synchronized", parenthesized, field "body" block])

/-- `break` or `continue`. -/
def jump (kind text : String) : Rule :=
  node kind (seqs [word text, optional identifier, word ";"])

def labeledStatement : Rule :=
  node "labeled_statement" (seqs [identifier, word ":", symbol .statement])

def expressionStatement : Rule := node "expression_statement" (seq (symbol .expression) (word ";"))

/-- A switch; with a semicolon behind it, it is an expression statement. -/
def switchStatement : Rule := chain true switch (fold "expression_statement" none (word ";"))

def yieldStatement : Rule :=
  node "yield_statement" (seqs [word "yield", symbol .expression, word ";"])

/-- The statements that start with a word or symbol of their own. -/
def wordedStatement : Rule :=
  firstOf [block, word ";", ifStatement, whileStatement, doStatement, enhancedForStatement,
    forStatement, tryStatement, tryWithResourcesStatement, wordStatement "return_statement" "return",
    wordStatement "throw_statement" "throw", assertStatement, jump "break_statement" "break",
    jump "continue_statement" "continue", switchStatement, synchronizedStatement]

/-- Whether a statement with a word of its own comes next. -/
def startsWorded (tokens : List Token) : Bool :=
  startsWith ["synchronized", "("] tokens ||
    startsWithOneOf ["\x7b", ";", "if", "while", "do", "for", "try", "return", "throw", "assert",
      "break", "continue", "switch"] tokens

/-- All other statements. -/
def plainStatement : Rule :=
  seq (ahead fun tokens => !startsWorded tokens)
    (firstOf [labeledStatement, localVariable, expressionStatement, yieldStatement])

end JavaCallGraph.Java.Grammar
