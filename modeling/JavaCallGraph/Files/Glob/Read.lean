import JavaCallGraph.Files.Glob.Basic

/-!
Reading globs.
-/

namespace JavaCallGraph

inductive GlobError where
  | unclosedClass
  | invalidRange (low high : Char)
  | unclosedChoice
  | unopenedChoice
  | danglingEscape
  deriving DecidableEq, Repr

def GlobError.message : GlobError → String
  | unclosedClass => "unclosed character class; missing ']'"
  | invalidRange low high =>
    "invalid range; '" ++ low.toString ++ "' > '" ++ high.toString ++ "'"
  | unclosedChoice =>
    "unclosed alternate group; missing '\x7d' (maybe escape '\x7b' with '[\x7b]'?)"
  | unopenedChoice =>
    "unopened alternate group; missing '\x7b' (maybe escape '\x7d' with '[\x7d]'?)"
  | danglingEscape => "dangling '\\'"

namespace Glob

/-! ### Classes -/

/-- A class that is being read: its ranges, last first, and whether a range waits for its end. -/
structure OpenClass where
  ranges : List (Char × Char) := []
  isOpen : Bool := false

/-- Add a character: it ends the range that waits for it, or is a range of its own. -/
def OpenClass.add (k : OpenClass) (c : Char) : Except GlobError OpenClass :=
  match k.isOpen, k.ranges with
  | true, (low, _) :: rest =>
    if c < low then .error (.invalidRange low c) else .ok { ranges := (low, c) :: rest }
  | _, ranges => .ok { ranges := (c, c) :: ranges }

/-- The ranges of a class that has ended; a last hyphen stands for itself. -/
def OpenClass.close (k : OpenClass) : List (Char × Char) :=
  if k.isOpen then k.ranges.reverse ++ [('-', '-')] else k.ranges.reverse

/-- Read a class from behind its first member, with the text behind it. -/
def classRest (k : OpenClass) : List Char → Except GlobError (List (Char × Char) × List Char)
  | [] => .error .unclosedClass
  | ']' :: rest => .ok (k.close, rest)
  | c :: rest =>
    if c = '-' ∧ ¬k.isOpen then classRest { k with isOpen := true } rest
    else
      match k.add c with
      | .ok k => classRest k rest
      | .error e => .error e

/-- Read a class from behind its opening bracket. The first member may be any character. -/
def readClass (cs : List Char) : Except GlobError (GlobToken × List Char) := do
  let (isNegated, cs) := match cs with
    | '!' :: rest | '^' :: rest => (true, rest)
    | cs => (false, cs)
  match cs with
  | [] => .error .unclosedClass
  | c :: rest =>
    let (ranges, rest) ← classRest { ranges := [(c, c)] } rest
    return (.oneOf isNegated ranges, rest)

/-! ### Globs -/

/-- An open choice, or the glob itself: branches that have ended, and the current one. Branches
and elements stand last first. -/
structure Level where
  branches : List (List GlobToken) := []
  current : List GlobToken := []

def Level.push (l : Level) (token : GlobToken) : Level := { l with current := token :: l.current }

/-- The branches in the order in which they were written. -/
def Level.close (l : Level) : List (List GlobToken) :=
  ((l.current :: l.branches).map List.reverse).reverse

/-- What has been read: the innermost level, those around it, and the last character. -/
structure ReadState where
  level : Level := {}
  outer : List Level := []
  previous : Option Char := none
  /-- An opening bracket stands for itself from now on. -/
  bracketsAreLiteral : Bool := false

def ReadState.push (s : ReadState) (token : GlobToken) : ReadState :=
  { s with level := s.level.push token }

/-- Put an element for directories in the place of the slash before it, unless directories stand
there already. -/
def ReadState.replaceSlash (s : ReadState) (token : GlobToken) : ReadState :=
  match s.level.current with
  | .anyDirectories :: _ | .anythingBelow :: _ => s
  | _ :: rest => { s with level := { s.level with current := token :: rest } }
  | [] => s.push token

/-- Read two stars, given the text behind them: with nothing but slashes around them they stand
for directories, else for themselves. -/
def ReadState.doubleStar (before : ReadState) (rest : List Char) : ReadState × List Char :=
  let s := { before with previous := some '*' }
  let pastSlash := fun (s : ReadState) => { s with previous := some '/' }
  let plain := ((s.push .star).push .star, rest)
  let opensBranch := before.previous == some ',' || before.previous == some '\x7b'
  if s.level.current.isEmpty then
    match rest with
    | [] => (s.push .anyDirectories, [])
    | '/' :: rest => (pastSlash (s.push .anyDirectories), rest)
    | _ => plain
  else if before.previous != some '/' && (s.outer.isEmpty || !opensBranch) then plain
  else
    match rest with
    | [] => (s.replaceSlash .anythingBelow, [])
    | '/' :: rest => (pastSlash (s.replaceSlash .betweenDirectories), rest)
    | c :: _ =>
      if (c = ',' || c = '\x7d') && !s.outer.isEmpty then (s.replaceSlash .anythingBelow, rest)
      else plain

/-- Read one element. A class without an end is an error, or its bracket stands for itself. -/
def ReadState.step (lenient : Bool) (s : ReadState) (c : Char) (rest : List Char) :
    Except GlobError (ReadState × List Char) :=
  let took := fun (s : ReadState) => { s with previous := some c }
  match c with
  | '?' => .ok (took (s.push .any), rest)
  | '*' =>
    match rest with
    | '*' :: rest => .ok (s.doubleStar rest)
    | rest => .ok (took (s.push .star), rest)
  | '[' =>
    if s.bracketsAreLiteral then .ok (took (s.push (.literal c)), rest)
    else
      match readClass rest with
      | .ok (token, rest) => .ok ({ s.push token with previous := some ']' }, rest)
      | .error .unclosedClass =>
        if lenient then
          .ok ({ took (s.push (.literal c)) with bracketsAreLiteral := true }, rest)
        else .error .unclosedClass
      | .error e => .error e
  | '\x7b' => .ok (took { s with level := {}, outer := s.level :: s.outer }, rest)
  | '\x7d' =>
    match s.outer with
    | [] => .error .unopenedChoice
    | level :: outer =>
      .ok (took { s with level := level.push (.choice s.level.close), outer }, rest)
  | ',' =>
    if s.outer.isEmpty then .ok (took (s.push (.literal c)), rest)
    else
      .ok (took { s with level := { branches := s.level.current :: s.level.branches } }, rest)
  | '\\' =>
    match rest with
    | [] => .error .danglingEscape
    | d :: rest => .ok ({ s.push (.literal d) with previous := some d }, rest)
  | c => .ok (took (s.push (.literal c)), rest)

def readWithin (lenient : Bool) :
    (bound : Nat) → ReadState → List Char → Except GlobError (List GlobToken)
  | _, s, [] => if s.outer.isEmpty then .ok s.level.current.reverse else .error .unclosedChoice
  | 0, _, _ => .error .danglingEscape
  | bound + 1, s, c :: rest => do
    let (s, rest) ← s.step lenient c rest
    readWithin lenient bound s rest

/-- Read a glob. Each element takes a character, so the length bounds the steps. -/
def read (lenient : Bool) (text : String) : Except GlobError Glob := do
  return { tokens := ← readWithin lenient text.length {} text.toList }

end Glob

end JavaCallGraph
