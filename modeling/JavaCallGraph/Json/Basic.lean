/-!
JSON values with their strings as written: escapes are recognised, and joined to characters only
where a string is used.
-/

namespace JavaCallGraph

/-- A part of a string: a character, or a code unit written `\uXXXX`. -/
inductive JsonPiece where
  | char (c : Char)
  | unit (code : Nat)
  deriving DecidableEq, Repr

inductive Json where
  | null
  | bool (value : Bool)
  | number
  | string (pieces : List JsonPiece)
  | array (elements : List Json)
  | object (members : List (List JsonPiece × Json))
  deriving Repr

namespace JsonPiece

def isLead (code : Nat) : Bool := 0xD800 ≤ code && code < 0xDC00

def isTrail (code : Nat) : Bool := 0xDC00 ≤ code && code < 0xE000

/-- The characters of a string. A surrogate must be half of a pair. -/
def decode : List JsonPiece → Option (List Char)
  | [] => some []
  | char c :: rest => (decode rest).map (c :: ·)
  | unit a :: unit b :: rest =>
    if isLead a && isTrail b then
      (decode rest).map (Char.ofNat (0x10000 + (a - 0xD800) * 0x400 + (b - 0xDC00)) :: ·)
    else if isLead a || isTrail a then none
    else (decode (unit b :: rest)).map (Char.ofNat a :: ·)
  | unit a :: rest =>
    if isLead a || isTrail a then none else (decode rest).map (Char.ofNat a :: ·)

/-- The text of a string. -/
def text? (pieces : List JsonPiece) : Option String := (decode pieces).map String.ofList

end JsonPiece

end JavaCallGraph
