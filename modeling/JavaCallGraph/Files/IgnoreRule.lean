import JavaCallGraph.Files.Glob.Read
import JavaCallGraph.Text.Blank

/-!
Rules that say which files to leave out, as lines of text.
-/

namespace JavaCallGraph

structure IgnoreRule where
  glob : Glob
  /-- The rule keeps what it matches. -/
  isKeep : Bool
  onlyDirectories : Bool
  deriving Repr

inductive Verdict where
  | ignore
  | keep
  deriving DecidableEq, Repr

namespace IgnoreRule

def dropSuffix (suffix cs : List Char) : List Char :=
  if suffix.isSuffixOf cs then cs.take (cs.length - suffix.length) else cs

/-- A line without blanks at its end, unless the last is escaped. -/
def trimLine (line : String) : String :=
  if "\\ ".toList.isSuffixOf line.toList then line
  else String.ofList (line.toList.reverse.dropWhile Text.isBlank).reverse

/-- The parts of a line: the mark that keeps what it matches, the slash that ties it to the
directory of the rules, and the glob. An escaped mark stands for itself. -/
def marks : List Char → Bool × Bool × List Char
  | '\\' :: '!' :: rest => (false, false, '!' :: rest)
  | '\\' :: '#' :: rest => (false, false, '#' :: rest)
  | '!' :: '/' :: rest => (true, true, rest)
  | '!' :: rest => (true, false, rest)
  | '/' :: rest => (false, true, rest)
  | cs => (false, false, cs)

/-- A glob without the slash at its end, which must match a directory then. -/
def directoryMark (cs : List Char) : Bool × List Char :=
  if ['/'].isSuffixOf cs then (true, dropSuffix ['\\'] (dropSuffix ['/'] cs)) else (false, cs)

/-- A glob without a slash matches at any depth. -/
def atAnyDepth (isAnchored : Bool) (cs : List Char) : List Char :=
  if isAnchored || cs.contains '/' || cs = ['*', '*'] then cs else "**/".toList ++ cs

/-- Two stars at the end match what is in a directory, but not the directory. -/
def belowOnly (cs : List Char) : List Char :=
  if "/**".toList.isSuffixOf cs then cs ++ "/*".toList else cs

/-- The rule of a line; a blank line or a comment is none. -/
def ofLine (lenient : Bool) (line : String) : Except GlobError (Option IgnoreRule) := do
  let line := (trimLine line).toList
  if line.head? = some '#' ∨ line.isEmpty then return none
  let (isKeep, isAnchored, rest) := marks line
  let (onlyDirectories, rest) := directoryMark rest
  let glob ← Glob.read lenient (String.ofList (belowOnly (atAnyDepth isAnchored rest)))
  return some { glob, isKeep, onlyDirectories }

def appliesTo (r : IgnoreRule) (path : String) (isDirectory : Bool) : Bool :=
  (!r.onlyDirectories || isDirectory) && r.glob.accepts path

def verdict (r : IgnoreRule) : Verdict := if r.isKeep then .keep else .ignore

/-- The verdict of the last rule that applies. -/
def decide? (rules : List IgnoreRule) (path : String) (isDirectory : Bool) : Option Verdict :=
  (rules.reverse.find? (·.appliesTo path isDirectory)).map verdict

/-! ### Files of rules -/

/-- The lines of a file, up to the first that is not text. -/
def textLines : List (List UInt8) → List String
  | [] => []
  | line :: rest =>
    match String.fromUTF8? ⟨line.toArray⟩ with
    | some text => text :: textLines rest
    | none => []

/-- The bytes between line feeds. -/
def splitLines : List UInt8 → List (List UInt8)
  | [] => [[]]
  | b :: rest =>
    if b = 10 then [] :: splitLines rest
    else
      match splitLines rest with
      | [] => [[b]]
      | line :: lines => (b :: line) :: lines

def withoutMark (line : String) : String := String.ofList (line.toList.dropWhile (· = '\ufeff'))

/-- The rules of a file. Lines that are no rules are passed over. -/
def ofFile (content : ByteArray) : List IgnoreRule :=
  let lines := match textLines (splitLines content.toList) with
    | [] => []
    | first :: rest => withoutMark first :: rest
  lines.filterMap fun line => (ofLine true line).toOption.join

/-! ### Patterns -/

/-- The rule that leaves out what a pattern matches; a blank pattern is none. The failure holds
the pattern, as far as it counts, and the line it stands for. -/
def ofPattern (pattern : String) : Except (String × String × GlobError) (Option IgnoreRule) :=
  let trimmed := (Text.trim pattern).toList
  let stripped := match trimmed with
    | '.' :: '/' :: rest => String.ofList rest
    | cs => String.ofList cs
  let line := trimLine ("!" ++ stripped)
  if trimmed.isEmpty then .ok none
  else
    match ofLine false line with
    | .ok rule => .ok (rule.map fun r => { r with isKeep := !r.isKeep })
    | .error e => .error (stripped, line, e)

end IgnoreRule

end JavaCallGraph
