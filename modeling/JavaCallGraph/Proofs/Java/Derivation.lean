import JavaCallGraph.Java.Grammar.Declaration
import Mathlib.Tactic.Common

/-!
What rules can read.

A reader tries alternatives in their order, takes as much as it can and gives up at some depth. A
derivation forgets all this: it says only how the rules of a grammar lead from some tokens to nodes.
What holds along derivations holds of all that is read.
-/

namespace JavaCallGraph.Java

/-- With the node to the left, the rule leads from the first cursor to the nodes and the second
cursor. -/
inductive Derives (grammar : Symbol → Rule) :
    Rule → Option Syntax → Cursor → List Syntax → Cursor → Prop where
  | token {test : Token → Bool} {left : Option Syntax} {t : Token} {rest : List Token}
    {last : Position} :
    test t → Derives grammar (.token test) left ⟨t :: rest, last⟩ [] ⟨rest, t.extent.stop⟩
  | leaf {kind : String} {test : Token → Bool} {left : Option Syntax} {t : Token}
    {rest : List Token} {last : Position} :
    test t → Derives grammar (.leaf kind test) left ⟨t :: rest, last⟩
      [.node kind none true t.extent []] ⟨rest, t.extent.stop⟩
  | ahead {test : List Token → Bool} {left : Option Syntax} {c : Cursor} :
    test c.rest → Derives grammar (.ahead test) left c [] c
  | nothing {left : Option Syntax} {c : Cursor} : Derives grammar .nothing left c [] c
  | symbol {name : Symbol} {left : Option Syntax} {c c' : Cursor} {found : List Syntax} :
    Derives grammar (grammar name) none c found c' → Derives grammar (.symbol name) left c found c'
  | seq {r s : Rule} {left : Option Syntax} {c c' c'' : Cursor} {found more : List Syntax} :
    Derives grammar r none c found c' → Derives grammar s none c' more c'' →
      Derives grammar (.seq r s) left c (found ++ more) c''
  | first {r s : Rule} {left : Option Syntax} {c c' : Cursor} {found : List Syntax} :
    Derives grammar r left c found c' → Derives grammar (.either r s) left c found c'
  | second {r s : Rule} {left : Option Syntax} {c c' : Cursor} {found : List Syntax} :
    Derives grammar s left c found c' → Derives grammar (.either r s) left c found c'
  | stop {r : Rule} {left : Option Syntax} {c : Cursor} : Derives grammar (.many r) left c [] c
  | more {r : Rule} {left : Option Syntax} {c c' c'' : Cursor} {found more : List Syntax} :
    Derives grammar r none c found c' → Derives grammar (.many r) none c' more c'' →
      Derives grammar (.many r) left c (found ++ more) c''
  | node {kind : String} {r : Rule} {left : Option Syntax} {c c' : Cursor} {found : List Syntax} :
    Derives grammar r none c found c' →
      Derives grammar (.node kind r) left c [.node kind none true ⟨c.start, c'.last⟩ found] c'
  | field {name : String} {r : Rule} {left : Option Syntax} {c c' : Cursor} {found : List Syntax} :
    Derives grammar r none c found c' →
      Derives grammar (.field name r) left c (found.map (Syntax.as (some name))) c'
  | fold {kind : String} {role : Option String} {r : Rule} {t : Syntax} {c c' : Cursor}
    {found : List Syntax} : Derives grammar r none c found c' →
      Derives grammar (.fold kind role r) (some t) c
        [.node kind none true ⟨t.extent.start, c'.last⟩ (t.as role :: found)] c'
  | start {isOnce : Bool} {r s : Rule} {left : Option Syntax} {c c' : Cursor}
    {found : List Syntax} :
    Derives grammar r left c found c' → Derives grammar (.chain isOnce r s) left c found c'
  | step {isOnce : Bool} {r s : Rule} {left : Option Syntax} {c c' c'' : Cursor} {t u : Syntax} :
    Derives grammar (.chain isOnce r s) left c [t] c' → Derives grammar s (some t) c' [u] c'' →
      Derives grammar (.chain isOnce r s) left c [u] c''

namespace Derives

variable {grammar : Symbol → Rule} {symbols : Symbol → Reader}

theorem of_manyWithin {r : Rule} {read : Reader}
    (each : ∀ {c found c'}, read c = some (found, c') → Derives grammar r none c found c')
    (left : Option Syntax) (bound : Nat) (c : Cursor) :
    Derives grammar (.many r) left c (read.manyWithin bound c).1 (read.manyWithin bound c).2 := by
  induction bound generalizing left c with
  | zero => exact .stop
  | succ bound ih =>
    rw [Reader.manyWithin]
    split
    · exact .stop
    · next found c' item => exact .more (each item) (ih none c')

theorem of_chainWithin {isOnce : Bool} {r s : Rule} {left : Option Syntax} {c : Cursor}
    {step : Syntax → Reader}
    (each : ∀ {t c found c'}, step t c = some (found, c') → Derives grammar s (some t) c found c')
    (bound : Nat) {t : Syntax} {c' : Cursor}
    (begun : Derives grammar (.chain isOnce r s) left c [t] c') :
    Derives grammar (.chain isOnce r s) left c [(Reader.chainWithin step bound t c').1]
      (Reader.chainWithin step bound t c').2 := by
  induction bound generalizing t c' with
  | zero => exact begun
  | succ bound ih =>
    rw [Reader.chainWithin]
    split
    · next larger c'' folded => exact ih (begun.step (each folded))
    · exact begun

/-- What is read is derived, if that is so for the names in the rule. -/
theorem of_read (named : ∀ {name c found c'}, symbols name c = some (found, c') →
      Derives grammar (grammar name) none c found c')
    {r : Rule} {left : Option Syntax} {c c' : Cursor} {found : List Syntax}
    (read : r.read symbols left c = some (found, c')) : Derives grammar r left c found c' := by
  induction r generalizing left c found c' with
  | token test =>
    obtain ⟨_ | ⟨t, rest⟩, last⟩ := c
    · cases read
    · simp only [Rule.read, Cursor.next?, Bool.cond_eq_ite] at read
      split at read
      · next fits =>
        cases read
        exact .token fits
      · cases read
  | leaf kind test =>
    obtain ⟨_ | ⟨t, rest⟩, last⟩ := c
    · cases read
    · simp only [Rule.read, Cursor.next?, Bool.cond_eq_ite] at read
      split at read
      · next fits =>
        cases read
        exact .leaf fits
      · cases read
  | ahead test =>
    rw [Rule.read, Bool.cond_eq_ite] at read
    split at read
    · next fits =>
      cases read
      exact .ahead fits
    · cases read
  | symbol name => exact .symbol (named read)
  | nothing =>
    cases read
    exact .nothing
  | seq r s ofFirst ofSecond =>
    rw [Rule.read] at read
    split at read
    · next first =>
      split at read
      · next second =>
        cases read
        exact .seq (ofFirst first) (ofSecond second)
      · cases read
    · cases read
  | either r s ofFirst ofSecond =>
    rw [Rule.read] at read
    split at read
    · next first =>
      cases read
      exact .first (ofFirst first)
    · exact .second (ofSecond read)
  | many r ofItem =>
    rw [Rule.read, Option.some.injEq] at read
    have derived := of_manyWithin ofItem left c.rest.length c
    rwa [read] at derived
  | node kind r ofContent =>
    rw [Rule.read] at read
    split at read
    · next content =>
      cases read
      exact .node (ofContent content)
    · cases read
  | field name r ofContent =>
    rw [Rule.read] at read
    split at read
    · next content =>
      cases read
      exact .field (ofContent content)
    · cases read
  | fold kind role r ofContent =>
    cases left with
    | none => cases read
    | some t =>
      simp only [Rule.read] at read
      split at read
      · next content =>
        cases read
        exact .fold (ofContent content)
      · cases read
  | chain isOnce r s ofFirst ofStep =>
    rw [Rule.read] at read
    split at read
    · next t c'' first =>
      cases read
      exact of_chainWithin ofStep _ (.start (ofFirst first))
    · exact .start (ofFirst read)

theorem of_reader {depth : Nat} {name : Symbol} {c c' : Cursor} {found : List Syntax}
    (read : Grammar.reader depth name c = some (found, c')) :
    Derives Grammar.rule (Grammar.rule name) none c found c' := by
  induction depth generalizing name c found c' with
  | zero => cases read
  | succ depth ih => exact of_read ih read

end Derives

/-- The rule of a file. -/
def Grammar.file : Rule := .many topLevel

/-- A text is read as a node around what the rule of a file derives from all its tokens. -/
theorem Syntax.derives_of_read? {text : String} {root : Syntax} (read : read? text = some root) :
    ∃ tokens trees c, Token.readAll text = some tokens ∧
      Derives Grammar.rule Grammar.file none { rest := tokens } trees c ∧
        root = .node "program" none true { stop := c.last } trees := by
  obtain ⟨tokens, lexed, read⟩ := Option.bind_eq_some_iff.mp read
  obtain ⟨⟨trees, c⟩, parsed, read⟩ := Option.bind_eq_some_iff.mp read
  dsimp only at read
  split at read
  · cases read
    exact ⟨tokens, trees, c, lexed, .of_read .of_reader parsed, rfl⟩
  · cases read

end JavaCallGraph.Java
