import JavaCallGraph.Files.Tree
import JavaCallGraph.Java.Source
import JavaCallGraph.Settings.Read
import JavaCallGraph.Text.Quoted

/-!
Loading a program from trees of files: the sources first, then each library. A file that cannot be
read does not stop the rest.
-/

namespace JavaCallGraph

/-- A file that was found but not loaded. -/
structure FileFailure where
  path : String
  stage : String
  message : String
  deriving DecidableEq, Repr, Inhabited

structure Loaded where
  program : Program := .empty
  failures : List FileFailure := []
  /-- The number of files found. -/
  seen : Nat := 0

namespace Loaded

/-- A file to load. -/
structure Job where
  path : String
  content : ByteArray
  origin : UnitOrigin

/-- A path as a unit shows it. -/
def shownPath (names : List String) : String :=
  String.ofList ((FileTree.joined names).toList.map fun c => if c = '\\' then '/' else c)

def jobs (tree : FileTree) (root : List String) (excludes : List IgnoreRule)
    (origin : UnitOrigin) : List Job :=
  (tree.javaFiles root excludes).map fun f => { path := shownPath f.path, content := f.content, origin }

def fail (l : Loaded) (path stage message : String) : Loaded :=
  { l with failures := l.failures ++ [{ path, stage, message }] }

/-- Add a file to what is loaded. -/
def load (l : Loaded) (job : Job) : Loaded :=
  match readText (some job.content) with
  | .error failure => l.fail job.path "read" failure.message
  | .ok text =>
    match l.program.addSource { path := job.path, text, origin := job.origin } with
    | .ok (_, program) => { l with program }
    | .error e => l.fail job.path "parse" e.message

/-- The rules of a caller's patterns, or the first pattern that is none. -/
def excludeRules (patterns : List String) : Except Error (List IgnoreRule) := do
  let rules ← patterns.mapM fun pattern =>
    match IgnoreRule.ofPattern pattern with
    | .ok rule => .ok rule
    | .error (stripped, line, e) =>
      .error (.config ("Invalid exclude pattern " ++ Text.Quoted.encode stripped ++
        ": error parsing glob '" ++ line ++ "': " ++ e.message))
  return rules.filterMap id

end Loaded

/-- Load the Java files below a place in a tree and those of the libraries. Patterns leave out
sources only. -/
def loadProgram (sources : FileTree) (root : List String) (patterns : List String)
    (libraries : List FileTree) : Except Error Loaded := do
  let excludes ← Loaded.excludeRules patterns
  let jobs := Loaded.jobs sources root excludes .source ++
    libraries.flatMap fun library => Loaded.jobs library [] [] .library
  return jobs.foldl Loaded.load { seen := jobs.length }

end JavaCallGraph
