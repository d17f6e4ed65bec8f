import JavaCallGraph.Files.IgnoreRule
import JavaCallGraph.Files.Path

/-!
Trees of files, and the Java files in them that count.

A rule file in a directory holds for all below it. Of two files of one kind the deeper one wins;
the files for this tool win over those for version control, and the patterns of a caller over both.
Below a directory that is left out nothing counts.
-/

namespace JavaCallGraph

inductive FileTree where
  | file (name : String) (content : ByteArray)
  | directory (name : String) (entries : List FileTree)

namespace FileTree

def name : FileTree → String
  | file name _ => name
  | directory name _ => name

def entries : FileTree → List FileTree
  | file _ _ => []
  | directory _ entries => entries

def isDirectory : FileTree → Bool
  | file _ _ => false
  | directory _ _ => true

def child? (tree : FileTree) (name : String) : Option FileTree :=
  tree.entries.find? (·.name == name)

/-! ### Building -/

/-- Put an entry in the place of the one with its name, or behind all others. -/
def replace (entry : FileTree) : List FileTree → List FileTree
  | [] => [entry]
  | e :: rest => if e.name == entry.name then entry :: rest else e :: replace entry rest

/-- Put a file below a list of entries. -/
def insert (content : ByteArray) : (path : List String) → List FileTree → List FileTree
  | [], entries => entries
  | [name], entries => replace (file name content) entries
  | name :: rest, entries =>
    let below := ((entries.find? (·.name == name)).map (·.entries)).getD []
    replace (directory name (insert content rest below)) entries

/-- The tree of some files, by their paths. -/
def ofFiles (files : List (String × ByteArray)) : FileTree :=
  directory "" (files.foldl (fun entries (path, content) =>
    insert content (Path.ofString path).names entries) [])

/-! ### Rules -/

/-- The rules of a directory, and the names that lead from it to where we are. -/
structure Scope where
  path : List String := []
  /-- From `.ignore`. -/
  own : List IgnoreRule := []
  /-- From `.gitignore`. -/
  shared : List IgnoreRule := []

def rulesIn (tree : FileTree) (name : String) : List IgnoreRule :=
  match tree.child? name with
  | some (file _ content) => IgnoreRule.ofFile content
  | _ => []

/-- The scope of a directory. -/
def scope (tree : FileTree) : Scope :=
  { own := tree.rulesIn ".ignore", shared := tree.rulesIn ".gitignore" }

def Scope.enter (s : Scope) (name : String) : Scope := { s with path := s.path ++ [name] }

def joined (names : List String) : String := "/".intercalate names

/-- The first verdict on an entry, from the innermost scope outwards. -/
def verdict? (scopes : List Scope) (rules : Scope → List IgnoreRule) (entry : FileTree) :
    Option Verdict :=
  scopes.findSome? fun s =>
    IgnoreRule.decide? (rules s) (joined (s.path ++ [entry.name])) entry.isDirectory

/-- Directories that never count. -/
def skippedDirectories : List String := [".git", ".slicer"]

/-- Whether an entry is left out. `path` leads from the root of the search to its directory. -/
def isLeftOut (excludes : List IgnoreRule) (scopes : List Scope) (path : List String)
    (entry : FileTree) : Bool :=
  let verdict :=
    (IgnoreRule.decide? excludes (joined (path ++ [entry.name])) entry.isDirectory).or
      ((verdict? scopes (·.own) entry).or (verdict? scopes (·.shared) entry))
  verdict == some .ignore || (entry.isDirectory && skippedDirectories.contains entry.name)

/-! ### Search -/

/-- A file found, with the names that lead to it. -/
structure Found where
  path : List String
  content : ByteArray

mutual

/-- The Java files at an entry that counts. -/
def javaFilesAt (excludes : List IgnoreRule) (scopes : List Scope) (path : List String) :
    FileTree → List Found
  | file name content => if isJavaName name then [⟨path ++ [name], content⟩] else []
  | directory name entries =>
    javaFilesAmong excludes ((directory name entries).scope :: scopes.map (·.enter name))
      (path ++ [name]) entries

/-- The Java files at the entries of a directory that count. -/
def javaFilesAmong (excludes : List IgnoreRule) (scopes : List Scope) (path : List String) :
    List FileTree → List Found
  | [] => []
  | entry :: rest =>
    let found := javaFilesAmong excludes scopes path rest
    if isLeftOut excludes scopes path entry then found
    else javaFilesAt excludes scopes path entry ++ found

end

/-- The place that names lead to, and the scopes around it, innermost first. -/
def locate : (path : List String) → List Scope → FileTree → Option (FileTree × List Scope)
  | [], scopes, tree => some (tree, scopes)
  | name :: rest, scopes, tree => do
    let next ← tree.child? name
    locate rest ((tree.scope :: scopes).map (·.enter name)) next

/-- The order of paths: name by name. -/
def pathLe : List String → List String → Bool
  | [], _ => true
  | _ :: _, [] => false
  | a :: as, b :: bs => if a = b then pathLe as bs else a < b

/-- The Java files below the place that names lead to, in the order of their paths. A file there
counts by itself; a place that does not exist has none. -/
def javaFiles (tree : FileTree) (root : List String) (excludes : List IgnoreRule) : List Found :=
  match tree.locate root [] with
  | none => []
  | some (file name content, _) => if isJavaName name then [⟨[], content⟩] else []
  | some (directory name entries, scopes) =>
    (javaFilesAmong excludes ((directory name entries).scope :: scopes) [] entries).mergeSort
      fun a b => pathLe a.path b.path

end FileTree

end JavaCallGraph
