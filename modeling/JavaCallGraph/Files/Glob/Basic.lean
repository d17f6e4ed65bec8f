/-!
Globs and the texts they match.

Matching goes by the bytes of a text. Each element of a glob leads from a text to the texts that
may be left behind it; a glob matches if nothing can be left.
-/

namespace JavaCallGraph

inductive GlobToken where
  | literal (c : Char)
  /-- `?`: a byte other than a slash. -/
  | any
  /-- `*`: bytes other than slashes. -/
  | star
  /-- `**/` at the start: nothing, or all up to a slash. -/
  | anyDirectories
  /-- `/**` at the end: a slash and all behind it. -/
  | anythingBelow
  /-- `/**/`: a slash, or all between two slashes. -/
  | betweenDirectories
  /-- `[a-z]`: one byte that is in one of the ranges, or in none of them. -/
  | oneOf (isNegated : Bool) (ranges : List (Char × Char))
  /-- `{a,b}`: one of the branches. -/
  | choice (branches : List (List GlobToken))
  deriving Repr

namespace GlobToken

def slash : UInt8 := 47

def bytes (c : Char) : List UInt8 := (String.singleton c).toUTF8.toList

/-- All texts that are left behind some number of bytes. -/
def tails : List UInt8 → List (List UInt8)
  | [] => [[]]
  | b :: rest => (b :: rest) :: tails rest

/-- The texts that are left behind some number of bytes other than slashes. -/
def segmentTails : List UInt8 → List (List UInt8)
  | [] => [[]]
  | b :: rest => if b = slash then [b :: rest] else (b :: rest) :: segmentTails rest

/-- The texts behind each slash. -/
def behindSlashes : List UInt8 → List (List UInt8)
  | [] => []
  | b :: rest => if b = slash then rest :: behindSlashes rest else behindSlashes rest

/-- The bytes of a range: a range of two characters runs from the last byte of the first to the
first byte of the second, and their other bytes count on their own. -/
def inRange (b : UInt8) (range : Char × Char) : Bool :=
  let low := bytes range.1
  let high := bytes range.2
  low.contains b || high.contains b ||
    (range.1 != range.2 && low.getLast?.any (· ≤ b) && high.head?.any (b ≤ ·))

/-- One of each length: texts left behind parts of one text are equal if they are as long. -/
def distinctLengths (texts : List (List UInt8)) : List (List UInt8) :=
  texts.foldl (fun kept t => if kept.any (·.length == t.length) then kept else kept ++ [t]) []

mutual

/-- The texts that may be left behind an element. -/
def rests (text : List UInt8) : GlobToken → List (List UInt8)
  | literal c =>
    let expected := bytes c
    if expected.isPrefixOf text then [text.drop expected.length] else []
  | any =>
    match text with
    | b :: rest => if b = slash then [] else [rest]
    | [] => []
  | star => segmentTails text
  | anyDirectories => text :: behindSlashes text
  | anythingBelow =>
    match text with
    | b :: rest => if b = slash then tails rest else []
    | [] => []
  | betweenDirectories =>
    match text with
    | b :: rest => if b = slash then rest :: behindSlashes rest else []
    | [] => []
  | oneOf isNegated ranges =>
    match text with
    | b :: rest => if ranges.any (inRange b) != isNegated then [rest] else []
    | [] => []
  | choice branches => restsOfBranches text branches

/-- The texts that may be left behind a run of elements. -/
def restsOfAll (texts : List (List UInt8)) : List GlobToken → List (List UInt8)
  | [] => texts
  | token :: more =>
    restsOfAll (distinctLengths (texts.flatMap fun text => rests text token)) more

/-- The texts that may be left behind one of the branches. -/
def restsOfSome (text : List UInt8) : List (List GlobToken) → List (List UInt8)
  | [] => []
  | branch :: more =>
    if branch.isEmpty then restsOfSome text more
    else restsOfAll [text] branch ++ restsOfSome text more

/-- As `restsOfSome`; without a branch that holds an element there is nothing to match. -/
def restsOfBranches (text : List UInt8) : List (List GlobToken) → List (List UInt8)
  | [] => [text]
  | branch :: more =>
    if branch.isEmpty then restsOfBranches text more
    else restsOfAll [text] branch ++ restsOfSome text more

end

end GlobToken

structure Glob where
  tokens : List GlobToken
  deriving Repr

/-- Whether a glob matches a whole text. -/
def Glob.accepts (g : Glob) (text : String) : Bool :=
  match g.tokens with
  | [.anyDirectories] => true
  | tokens => (GlobToken.restsOfAll [text.toUTF8.toList] tokens).any (·.isEmpty)

end JavaCallGraph
