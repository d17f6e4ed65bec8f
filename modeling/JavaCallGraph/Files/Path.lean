/-!
Paths, written with forward slashes.

A path starts at the root or is relative. Empty segments and segments `.` do not count, apart from
a `.` at the very start of a relative path.
-/

namespace JavaCallGraph

/-- The pieces of a text between its slashes. -/
def splitSlashes : List Char → List (List Char)
  | [] => [[]]
  | c :: rest =>
    if c = '/' then [] :: splitSlashes rest
    else
      match splitSlashes rest with
      | [] => [[c]]
      | piece :: pieces => (c :: piece) :: pieces

/-- A path as its segments, as written. -/
structure Path where
  isAbsolute : Bool
  /-- Behind the first slash of an absolute path. -/
  segments : List String
  deriving DecidableEq, Repr, Inhabited

namespace Path

def ofString (s : String) : Path :=
  match s.toList with
  | '/' :: rest => { isAbsolute := true, segments := (splitSlashes rest).map String.ofList }
  | cs => { isAbsolute := false, segments := (splitSlashes cs).map String.ofList }

def render (p : Path) : String :=
  (if p.isAbsolute then "/" else "") ++ "/".intercalate p.segments

/-- Whether a segment does not count. -/
def isEmptySegment (s : String) : Bool := s == "" || s == "."

/-- What stands before the segments that count: the root, or a `.` at the start. -/
def head (p : Path) : List String :=
  if p.isAbsolute then ["/"]
  else if p.segments.head? == some "." then ["."]
  else []

/-- The segments that count. -/
def names (p : Path) : List String := p.segments.filter (!isEmptySegment ·)

/-- By what two paths are compared. -/
def components (p : Path) : List String := p.head ++ p.names

/-- The segments without those at the end that do not count. -/
def trimmed (segments : List String) : List String :=
  (segments.reverse.dropWhile isEmptySegment).reverse

/-- The segments behind the first `n` that count, from the next one on. -/
def dropNames : (n : Nat) → List String → List String
  | 0, segments => segments.dropWhile isEmptySegment
  | n + 1, segments => dropNames n ((segments.dropWhile isEmptySegment).drop 1)

/-- A path without segments at the end that do not count; its start stays as written. -/
def withoutTail (p : Path) : Path :=
  if p.head = ["."] then { p with segments := "." :: trimmed (p.segments.drop 1) }
  else { p with segments := trimmed p.segments }

/-- What is left of a path behind the components of another. -/
def strip? (root p : Path) : Option Path :=
  if !root.components.isPrefixOf p.components then none
  else if root.components.isEmpty then some p.withoutTail
  else
    some { isAbsolute := false, segments := trimmed (dropNames root.names.length p.segments) }

/-- A path seen from a root, with every backslash as a slash. A path that is not below the root
stays as it is. -/
def relativeTo (root path : String) : String :=
  let shown := match (ofString root).strip? (ofString path) with
    | some rest => rest.render
    | none => path
  String.ofList (shown.toList.map fun c => if c = '\\' then '/' else c)

/-- The name of the file or directory, unless the path ends in `..`. -/
def fileName? (p : Path) : Option String :=
  match p.names.getLast? with
  | some ".." => none
  | last => last

end Path

/-- The part of a name behind its last dot; a dot at the start does not count. -/
def extension? (name : String) : Option String :=
  let reversed := name.toList.reverse
  let tail := reversed.takeWhile (· ≠ '.')
  match reversed.drop tail.length with
  | '.' :: before => if before.isEmpty then none else some (String.ofList tail.reverse)
  | _ => none

/-- Whether a file name ends in `.java`, in letters of any case. -/
def isJavaName (name : String) : Bool :=
  (extension? name).any fun e => String.ofList (e.toList.map Char.toLower) == "java"

def isJavaFile (path : String) : Bool := (Path.ofString path).fileName?.any isJavaName

end JavaCallGraph
