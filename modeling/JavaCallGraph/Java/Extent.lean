import JavaCallGraph.Program.Node

/-!
Places in a source text. Rows count line feeds from zero; bytes count its UTF-8 form.
-/

namespace JavaCallGraph.Java

structure Position where
  row : Nat := 0
  byte : Nat := 0
  deriving DecidableEq, Repr, Inhabited

namespace Position

/-- The position behind a character. -/
def past (p : Position) (c : Char) : Position :=
  { row := if c = '\n' then p.row + 1 else p.row, byte := p.byte + c.utf8Size }

def pastAll (p : Position) (cs : List Char) : Position := cs.foldl past p

end Position

/-- From the first character of a piece of text to behind its last. -/
structure Extent where
  start : Position := {}
  stop : Position := {}
  deriving DecidableEq, Repr, Inhabited

/-- The span of a node; its lines count from one. -/
def Extent.span (e : Extent) : Span :=
  { startLine := e.start.row + 1
    endLine := e.stop.row + 1
    startByte := e.start.byte
    endByte := e.stop.byte }

/-! ### Texts -/

/-- A text behind its first bytes, if these end where a character ends. -/
def dropBytes : Nat → List Char → Option (List Char)
  | 0, cs => some cs
  | _ + 1, [] => none
  | n + 1, c :: cs => if c.utf8Size ≤ n + 1 then dropBytes (n + 1 - c.utf8Size) cs else none

/-- The first bytes of a text, if they end where a character ends. -/
def takeBytes : Nat → List Char → Option (List Char)
  | 0, _ => some []
  | _ + 1, [] => none
  | n + 1, c :: cs =>
    if c.utf8Size ≤ n + 1 then (takeBytes (n + 1 - c.utf8Size) cs).map (c :: ·) else none

/-- The piece of a text, if the extent lies in it and cuts no character. -/
def Extent.slice? (e : Extent) (source : List Char) : Option String :=
  if e.start.byte ≤ e.stop.byte then do
    let rest ← dropBytes e.start.byte source
    return String.ofList (← takeBytes (e.stop.byte - e.start.byte) rest)
  else none

theorem Extent.span_known (e : Extent) : e.span.isUnknown = false := by
  simp [Span.isUnknown, Span.unknown, span]

end JavaCallGraph.Java
