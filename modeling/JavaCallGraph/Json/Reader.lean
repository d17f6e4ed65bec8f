import JavaCallGraph.Json.Token

/-!
Reading a JSON value from its tokens, one token at a time, with a stack of open brackets. Nesting
has no limit.
-/

namespace JavaCallGraph.Json

/-- An open bracket and what stands in it so far, last first. -/
inductive Frame where
  | array (elements : List Json)
  | object (members : List (List JsonPiece × Json)) (key : List JsonPiece)

/-- What the next token may be. -/
inductive Expect where
  | value
  /-- The first element of an array, or its end. -/
  | elementOrClose
  | key (members : List (List JsonPiece × Json))
  /-- The first key of an object, or its end. -/
  | keyOrClose
  | colon (members : List (List JsonPiece × Json)) (key : List JsonPiece)
  /-- A comma or a closing bracket behind a value; at the outermost level, nothing. -/
  | more (value : Json)

/-- Open a bracket, or take a value of one token. -/
def start (stack : List Frame) : Token → Option (Expect × List Frame)
  | .openArray => some (.elementOrClose, stack)
  | .openObject => some (.keyOrClose, stack)
  | .scalar v => some (.more v, stack)
  | .text pieces => some (.more (.string pieces), stack)
  | _ => none

def step (stack : List Frame) : Expect → Token → Option (Expect × List Frame)
  | .elementOrClose, .closeArray => some (.more (.array []), stack)
  | .elementOrClose, token => start (.array [] :: stack) token
  | .keyOrClose, .closeObject => some (.more (.object []), stack)
  | .keyOrClose, .text key => some (.colon [] key, stack)
  | .key members, .text key => some (.colon members key, stack)
  | .colon members key, .colon => some (.value, .object members key :: stack)
  | .value, token => start stack token
  | .more v, token =>
    match stack, token with
    | .array elements :: stack, .comma => some (.value, .array (v :: elements) :: stack)
    | .array elements :: stack, .closeArray =>
      some (.more (.array (v :: elements).reverse), stack)
    | .object members key :: stack, .comma => some (.key ((key, v) :: members), stack)
    | .object members key :: stack, .closeObject =>
      some (.more (.object ((key, v) :: members).reverse), stack)
    | _, _ => none
  | _, _ => none

def run (stack : List Frame) : Expect → List Token → Option Json
  | .more v, [] => if stack.isEmpty then some v else none
  | _, [] => none
  | expect, token :: rest => do
    let (expect, stack) ← step stack expect token
    run stack expect rest

/-- The value that a text writes. -/
def read (s : String) : Option Json := do run [] .value (← Token.readAll s)

end JavaCallGraph.Json
