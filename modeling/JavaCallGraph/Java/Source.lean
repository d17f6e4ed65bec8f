import JavaCallGraph.Digest.Sha256
import JavaCallGraph.Java.Grammar.Declaration
import JavaCallGraph.Java.Lowering

/-!
Adding Java texts to a program.

What a text is added as depends on the parser that gives its syntax tree. A parser may give a tree
for any text, also for one with errors; the one in use here gives none for these, nor for texts with
expressions embedded in strings.
-/

namespace JavaCallGraph

/-- A Java text and where it came from. -/
structure Source where
  path : String
  text : String
  origin : UnitOrigin := .source
  deriving DecidableEq, Repr, Inhabited

/-- A way to get the syntax tree of a text. -/
abbrev Java.Parser := String → Option Java.Syntax

namespace Program

/-- Append a text as a unit. -/
def addSourceBy (parse : Java.Parser) (p : Program) (s : Source) :
    Except Error (NodeId × Program) :=
  match parse s.text with
  | some root => .ok (p.nextId, Java.lowerSource p s.path s.origin (Sha256.ofText s.text) s.text root)
  | none => .error (.parse ("Failed to parse " ++ s.path))

/-- A program of texts, in their order. -/
def ofSourcesBy (parse : Java.Parser) (sources : List Source) : Except Error Program :=
  sources.foldlM (fun p s => do return (← p.addSourceBy parse s).2) .empty

def addSource (p : Program) (s : Source) : Except Error (NodeId × Program) :=
  p.addSourceBy Java.Syntax.read? s

def ofSources (sources : List Source) : Except Error Program := ofSourcesBy Java.Syntax.read? sources

end Program

end JavaCallGraph
