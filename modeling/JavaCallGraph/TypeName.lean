import JavaCallGraph.Text.Blank
import JavaCallGraph.Text.WordChar

/-!
Type names as written in source, and the parts of them that name a declaration.

`normalize` drops generic arguments, blanks and package qualifiers; `simple` is the last segment
of the normal form without array and varargs suffixes.
-/

namespace JavaCallGraph.TypeName

open Text

/-- Keep what stands outside angle brackets and is not blank. A closing bracket without an
opening one is dropped and opens nothing. -/
def erase (depth : Nat) : List Char → List Char
  | [] => []
  | c :: rest =>
    if c = '<' then erase (depth + 1) rest
    else if c = '>' then erase (depth - 1) rest
    else if depth = 0 && !isBlank c then c :: erase depth rest
    else erase depth rest

/-- A package segment starts with a lower-case ASCII letter or an underscore. -/
def startsSegment (c : Char) : Bool := c.isLower || c == '_'

/-- Drop every run of dot-terminated package segments that begins at a word boundary.

`held` is the segment being read, in reverse: it is forgotten at a dot and given back at any
other end. `inWord` says whether the character before the position is a word character. Inside a
held segment no other segment can begin, since no word boundary lies there. -/
def dropQualifiers (held : List Char) (inWord : Bool) : List Char → List Char
  | [] => held.reverse
  | c :: rest =>
    if held.isEmpty then
      if startsSegment c && !inWord then dropQualifiers [c] true rest
      else c :: dropQualifiers [] (isWord c) rest
    else if isAsciiWord c then dropQualifiers (c :: held) true rest
    else if c = '.' then dropQualifiers [] false rest
    else held.reverse ++ c :: dropQualifiers [] (isWord c) rest

/-- Without generic arguments, blanks and package qualifiers: `java.util.List<String>` becomes
`List`, `Map.Entry<K, V>[]` becomes `Map.Entry[]`. -/
def normalize (raw : String) : String :=
  String.ofList (dropQualifiers [] false (erase 0 raw.toList))

/-- Drop final `...` suffixes of a reversed text. -/
def dropEllipses : List Char → List Char
  | '.' :: '.' :: '.' :: rest => dropEllipses rest
  | text => text

/-- Drop final `[]` suffixes of a reversed text. -/
def dropBrackets : List Char → List Char
  | ']' :: '[' :: rest => dropBrackets rest
  | text => text

/-- What follows the last dot of a text, or the whole text. -/
def lastSegment (s : String) : String :=
  String.ofList (s.toList.reverse.takeWhile (· ≠ '.')).reverse

/-- Last segment of the normal form, without array and varargs suffixes: `Map.Entry[]` becomes
`Entry`. -/
def simple (raw : String) : String :=
  let suffixFree := dropBrackets (dropEllipses (normalize raw).toList.reverse)
  String.ofList (suffixFree.takeWhile (· ≠ '.')).reverse

end JavaCallGraph.TypeName
