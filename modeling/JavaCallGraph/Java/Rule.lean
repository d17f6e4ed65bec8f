import JavaCallGraph.Java.Syntax
import JavaCallGraph.Java.Token

/-!
Grammar rules and how they are read.

A rule says which tokens come next and which nodes they make up. Of two alternatives the second is
tried only where the first one fails, and a repetition takes as much as it can. The rules that refer
to each other do so by name, so a grammar is plain data: one rule for each name.
-/

namespace JavaCallGraph.Java

/-- What surrounds a member. -/
inductive Body where
  | classBody
  | interfaceBody
  | annotationBody
  deriving DecidableEq, Repr

/-- The names of the rules that refer to each other. -/
inductive Symbol where
  | expression
  /-- An operand of an operator, with the signs before it and the selectors behind it. The flag
  says whether it may be a lambda. -/
  | operand (lambdas : Bool)
  /-- An expression, an annotation or a list of values in braces. -/
  | value
  | annotationUse
  | type
  | pattern
  | statement
  | member (body : Body)
  deriving DecidableEq, Repr

inductive Rule where
  /-- A token that makes up no node. -/
  | token (test : Token → Bool)
  /-- A token that is a node. -/
  | leaf (kind : String) (test : Token → Bool)
  /-- A condition on the tokens that follow. -/
  | ahead (test : List Token → Bool)
  | symbol (name : Symbol)
  | nothing
  | seq (first second : Rule)
  | either (first second : Rule)
  | many (item : Rule)
  /-- One node around those of a rule. -/
  | node (kind : String) (content : Rule)
  /-- The nodes of a rule, in a field of the node around them. -/
  | field (name : String) (content : Rule)
  /-- One node around the node to the left, which gets a field, and those of a rule. -/
  | fold (kind : String) (role : Option String) (content : Rule)
  /-- A node, then steps that fold it into larger ones: at most one step or any number. -/
  | chain (isOnce : Bool) (first step : Rule)

/-- The same node in a field. -/
def Syntax.as (field : Option String) : Syntax → Syntax
  | node kind _ isNamed extent children => node kind field isNamed extent children

/-- The tokens ahead, and the position behind the last token taken. -/
structure Cursor where
  rest : List Token
  last : Position := {}

namespace Cursor

/-- Where the next token starts. -/
def start (c : Cursor) : Position :=
  match c.rest with
  | t :: _ => t.extent.start
  | [] => c.last

/-- Take the next token. -/
def next? (c : Cursor) : Option (Token × Cursor) :=
  match c.rest with
  | t :: rest => some (t, { rest, last := t.extent.stop })
  | [] => none

end Cursor

/-- A reader takes tokens and gives nodes, or fails. -/
abbrev Reader := Cursor → Option (List Syntax × Cursor)

namespace Reader

/-- Run a reader until it fails, at most `bound` times. -/
def manyWithin (r : Reader) : (bound : Nat) → Cursor → List Syntax × Cursor
  | 0, c => ([], c)
  | bound + 1, c =>
    match r c with
    | none => ([], c)
    | some (found, next) =>
      let (more, last) := manyWithin r bound next
      (found ++ more, last)

/-- Fold a node into larger ones until the step fails, at most `bound` times. -/
def chainWithin (step : Syntax → Reader) : (bound : Nat) → Syntax → Cursor → Syntax × Cursor
  | 0, t, c => (t, c)
  | bound + 1, t, c =>
    match step t c with
    | some ([larger], next) => chainWithin step bound larger next
    | _ => (t, c)

end Reader

namespace Rule

/-- Read a rule, with the node to its left where it is a step of a chain. -/
def read (symbols : Symbol → Reader) : Rule → Option Syntax → Reader
  | token test, _, c =>
    match c.next? with
    | some (t, next) => bif test t then some ([], next) else none
    | none => none
  | leaf kind test, _, c =>
    match c.next? with
    | some (t, next) => bif test t then some ([.node kind none true t.extent []], next) else none
    | none => none
  | ahead test, _, c => bif test c.rest then some ([], c) else none
  | symbol name, _, c => symbols name c
  | nothing, _, c => some ([], c)
  | seq first second, _, c =>
    match first.read symbols none c with
    | some (found, next) =>
      match second.read symbols none next with
      | some (more, last) => some (found ++ more, last)
      | none => none
    | none => none
  | either first second, left, c =>
    match first.read symbols left c with
    | some result => some result
    | none => second.read symbols left c
  | many item, _, c => some (Reader.manyWithin (item.read symbols none) c.rest.length c)
  | node kind content, _, c =>
    match content.read symbols none c with
    | some (found, next) =>
      some ([.node kind none true { start := c.start, stop := next.last } found], next)
    | none => none
  | field name content, _, c =>
    match content.read symbols none c with
    | some (found, next) => some (found.map (Syntax.as (some name)), next)
    | none => none
  | fold kind role content, left, c =>
    match left with
    | some t =>
      match content.read symbols none c with
      | some (found, next) =>
        let extent := { start := t.extent.start, stop := next.last }
        some ([.node kind none true extent (t.as role :: found)], next)
      | none => none
    | none => none
  | chain isOnce first step, left, c =>
    match first.read symbols left c with
    | some ([t], next) =>
      let bound := if isOnce then 1 else next.rest.length
      let (larger, last) := Reader.chainWithin (fun t => step.read symbols (some t)) bound t next
      some ([larger], last)
    | result => result

/-! ### Abbreviations -/

def seqs : List Rule → Rule
  | [] => nothing
  | [r] => r
  | r :: rest => seq r (seqs rest)

/-- The first of some rules that does not fail. -/
def firstOf : List Rule → Rule
  | [] => ahead fun _ => false
  | [r] => r
  | r :: rest => either r (firstOf rest)

def word (text : String) : Rule := token (·.text == text)

def wordOf (texts : List String) : Rule := token fun t => texts.contains t.text

/-- A rule that may be missing. -/
def optional (r : Rule) : Rule := either r nothing

/-- One or more. -/
def several (r : Rule) : Rule := seq r (many r)

/-- One or more, with a separator between them. -/
def separated (separator : String) (r : Rule) : Rule := seq r (many (seq (word separator) r))

/-- None or more, with commas between them. -/
def listed (r : Rule) : Rule := optional (separated "," r)

/-- A rule between round brackets. -/
def bracketed (r : Rule) : Rule := seqs [word "(", r, word ")"]

/-- A closing brace; at the end of the text it may be missing. -/
def closeBrace : Rule := either (ahead List.isEmpty) (word "\x7d")

/-- A rule between braces. -/
def braced (r : Rule) : Rule := seqs [word "\x7b", r, closeBrace]

end Rule

end JavaCallGraph.Java
