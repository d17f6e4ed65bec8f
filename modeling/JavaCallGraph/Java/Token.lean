import JavaCallGraph.Java.Extent
import JavaCallGraph.Text.IdentifierChar

/-!
The tokens of a Java text.

A token says whether blanks or comments stand before it. A closing angle bracket is always a token
of its own: whether two of them are an operator or the ends of two type argument lists is for the
grammar to say.
-/

namespace JavaCallGraph.Java

inductive TokenKind where
  | word
  /-- A literal, with the kind of its node. -/
  | literal (kind : String)
  | symbol
  deriving DecidableEq, Repr, Inhabited

structure Token where
  kind : TokenKind
  text : String
  /-- Whether no blank or comment stands before it. -/
  isAdjacent : Bool
  extent : Extent
  deriving DecidableEq, Repr, Inhabited

namespace Token

/-! ### Gaps -/

def isSpace (c : Char) : Bool := c == ' ' || ('\t' ≤ c && c ≤ '\r')

/-- The length of a block comment from behind its opening. -/
def blockRest? : List Char → Option Nat
  | '*' :: '/' :: _ => some 2
  | _ :: rest => (blockRest? rest).map (· + 1)
  | [] => none

/-- The length of a comment at the start. -/
def comment? : List Char → Option Nat
  | '/' :: '/' :: rest => some (2 + (rest.takeWhile (· ≠ '\n')).length)
  | '/' :: '*' :: rest => (blockRest? rest).map (2 + ·)
  | _ => none

/-- The length of the blanks and comments at the start, in at most `bound` pieces. -/
def gapWithin : (bound : Nat) → List Char → Nat
  | 0, _ => 0
  | _ + 1, [] => 0
  | bound + 1, c :: rest =>
    if isSpace c then 1 + gapWithin bound rest
    else
      match comment? (c :: rest) with
      | some n => n + gapWithin bound ((c :: rest).drop n)
      | none => 0

def gapLength (cs : List Char) : Nat := gapWithin cs.length cs

/-! ### Literals -/

/-- The length of a literal in quotes from behind the opening quote. A backslash takes the next
character with it; one that opens an embedded expression is not read. -/
def quotedRest? (quote : Char) : List Char → Option Nat
  | '\\' :: '\x7b' :: _ => none
  | '\\' :: _ :: rest => (quotedRest? quote rest).map (· + 2)
  | c :: rest => if c = quote then some 1 else (quotedRest? quote rest).map (· + 1)
  | [] => none

/-- The length of a text block from behind its opening quotes. -/
def textBlockRest? : List Char → Option Nat
  | '\\' :: '\x7b' :: _ => none
  | '\\' :: _ :: rest => (textBlockRest? rest).map (· + 2)
  | '"' :: '"' :: '"' :: _ => some 3
  | _ :: rest => (textBlockRest? rest).map (· + 1)
  | [] => none

def isHexDigit (c : Char) : Bool :=
  c.isDigit || ('a' ≤ c && c ≤ 'f') || ('A' ≤ c && c ≤ 'F')

/-- The length of a run of digits and underscores. -/
def digits (isDigit : Char → Bool) (cs : List Char) : Nat :=
  (cs.takeWhile fun c => isDigit c || c == '_').length

/-- The length of an exponent at the start, or zero. -/
def exponent (small big : Char) : List Char → Nat
  | c :: rest =>
    if c = small ∨ c = big then
      let sign := match rest with
        | '+' :: _ | '-' :: _ => 1
        | _ => 0
      let n := digits Char.isDigit (rest.drop sign)
      if n = 0 then 0 else 1 + sign + n
    else 0
  | [] => 0

/-- The length of a suffix letter at the start, or zero. -/
def suffix (letters : List Char) : List Char → Nat
  | c :: _ => if letters.contains c then 1 else 0
  | [] => 0

/-- The length of a point and the digits behind it, or zero. -/
def fraction (isDigit : Char → Bool) : List Char → Nat
  | '.' :: rest => 1 + digits isDigit rest
  | _ => 0

/-- The length of a number whose digits before the point take `whole` characters, and whether it
is a floating-point one. -/
def numberTail (isDigit : Char → Bool) (small big : Char) (floatSuffix : List Char) (whole : Nat)
    (cs : List Char) : Nat × Bool :=
  let point := fraction isDigit (cs.drop whole)
  let power := exponent small big (cs.drop (whole + point))
  let mark := suffix floatSuffix (cs.drop (whole + point + power))
  if point + power + mark = 0 then (whole + suffix ['l', 'L'] (cs.drop whole), false)
  else (whole + point + power + mark, true)

/-- The length of a number at the start, and whether it is a floating-point one. -/
def number (cs : List Char) : Nat × Bool :=
  match cs with
  | '0' :: 'x' :: rest | '0' :: 'X' :: rest =>
    let (n, isFloat) := numberTail isHexDigit 'p' 'P' [] (digits isHexDigit rest) rest
    if isFloat then (2 + n + suffix ['f', 'F', 'd', 'D'] (rest.drop n), true) else (2 + n, false)
  | '0' :: 'b' :: rest | '0' :: 'B' :: rest =>
    let n := digits Char.isDigit rest
    (2 + n + suffix ['l', 'L'] (rest.drop n), false)
  | cs => numberTail Char.isDigit 'e' 'E' ['f', 'F', 'd', 'D'] (digits Char.isDigit cs) cs

/-- The kind of a number, by its first characters and its form. -/
def numberKind (isFloat : Bool) (lexeme : List Char) : String :=
  match lexeme with
  | '0' :: 'x' :: _ | '0' :: 'X' :: _ =>
    if isFloat then "hex_floating_point_literal" else "hex_integer_literal"
  | '0' :: 'b' :: _ | '0' :: 'B' :: _ => "binary_integer_literal"
  | '0' :: c :: _ =>
    if isFloat then "decimal_floating_point_literal"
    else if c.isDigit || c == '_' then "octal_integer_literal"
    else "decimal_integer_literal"
  | _ => if isFloat then "decimal_floating_point_literal" else "decimal_integer_literal"

/-! ### Symbols -/

/-- Symbols of more than one character; of two that fit, the longer comes first. -/
def symbols : List String :=
  ["...", "<<=", "->", "::", "++", "--", "&&", "||", "==", "!=", "<=", "<<", "+=", "-=", "*=",
    "/=", "&=", "|=", "^=", "%="]

def symbol (cs : List Char) : Nat :=
  match symbols.find? fun s => s.toList.isPrefixOf cs with
  | some s => s.length
  | none => 1

/-! ### Reading -/

/-- The kind and length of the token at the start of a text that starts with none of a gap. -/
def next? (cs : List Char) : Option (TokenKind × Nat) :=
  match cs with
  | [] => none
  | '"' :: '"' :: '"' :: rest => (textBlockRest? rest).map fun n => (.literal "string_literal", 3 + n)
  | '"' :: rest => (quotedRest? '"' rest).map fun n => (.literal "string_literal", 1 + n)
  | '\'' :: rest => (quotedRest? '\'' rest).map fun n => (.literal "character_literal", 1 + n)
  | c :: rest =>
    if Text.isIdentifierStart c then
      let n := 1 + (rest.takeWhile Text.isIdentifierPart).length
      let lexeme := String.ofList (cs.take n)
      some (if lexeme = "true" ∨ lexeme = "false" then .literal lexeme else .word, n)
    else if c.isDigit || (c == '.' && (rest.head?.any Char.isDigit)) then
      let (n, isFloat) := number cs
      some (.literal (numberKind isFloat (cs.take n)), n)
    else some (.symbol, symbol cs)

/-- Read at most `bound` tokens from a text at a position. -/
def readWithin : (bound : Nat) → Position → List Char → Option (List Token)
  | 0, _, cs => if cs.isEmpty then some [] else none
  | bound + 1, p, cs =>
    let g := gapLength cs
    let start := p.pastAll (cs.take g)
    match cs.drop g with
    | [] => some []
    | cs' => do
      let (kind, n) ← next? cs'
      let stop := start.pastAll (cs'.take n)
      let rest ← readWithin bound stop (cs'.drop n)
      return { kind, text := String.ofList (cs'.take n), isAdjacent := g == 0,
               extent := { start, stop } } :: rest

/-- The tokens of a text; a byte order mark at its start is skipped. -/
def readAll (s : String) : Option (List Token) :=
  match s.toList with
  | '\ufeff' :: rest => readWithin (rest.length + 1) (({} : Position).past '\ufeff') rest
  | cs => readWithin (cs.length + 1) {} cs

end Token

end JavaCallGraph.Java
