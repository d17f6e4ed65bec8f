import JavaCallGraph.Proofs.Java.Derivation
import Mathlib.Data.List.Basic

/-!
Where the nodes of a text lie.

The tokens of a text stand in order and none of them is empty. So while a derivation goes on, neither
the position behind the last token taken nor that of the next one ever falls back, and the nodes that
it makes lie one behind the other. No node is empty either, because the rule of every node takes a
token.
-/

namespace JavaCallGraph.Java

/-! ### Tokens in order -/

namespace Position

theorem byte_le_pastAll (p : Position) (cs : List Char) : p.byte ≤ (p.pastAll cs).byte := by
  induction cs generalizing p with
  | nil => exact Nat.le_refl _
  | cons c rest ih => exact Nat.le_trans (Nat.le_add_right _ _) (ih (p.past c))

theorem byte_lt_pastAll (p : Position) {cs : List Char} (some : cs ≠ []) :
    p.byte < (p.pastAll cs).byte := by
  cases cs with
  | nil => exact absurd rfl some
  | cons c rest =>
    have taken : p.byte < (p.past c).byte := Nat.lt_add_of_pos_right c.utf8Size_pos
    exact Nat.lt_of_lt_of_le taken (byte_le_pastAll _ rest)

end Position

namespace Token

/-- Tokens behind a byte, each of them behind the one before and none of them empty. -/
def InOrder : (last : Nat) → List Token → Prop
  | _, [] => True
  | last, t :: rest => last ≤ t.extent.start.byte ∧ t.extent.start.byte < t.extent.stop.byte ∧
      InOrder t.extent.stop.byte rest

theorem InOrder.mono {last last' : Nat} {tokens : List Token} (ordered : InOrder last tokens)
    (earlier : last' ≤ last) : InOrder last' tokens := by
  cases tokens with
  | nil => trivial
  | cons t rest => exact ⟨Nat.le_trans earlier ordered.1, ordered.2⟩

theorem symbol_pos (cs : List Char) : 0 < symbol cs := by
  unfold symbol
  split
  · next s found =>
    have nonempty : ∀ s ∈ symbols, 0 < s.length := by decide
    exact nonempty s (List.mem_of_find?_eq_some found)
  · exact Nat.one_pos

theorem digits_pos {isDigit : Char → Bool} {c : Char} (digit : isDigit c) (rest : List Char) :
    0 < digits isDigit (c :: rest) := by
  simp [digits, digit]

theorem numberTail_pos {isDigit : Char → Bool} {small big : Char} {floatSuffix : List Char}
    {whole : Nat} {cs : List Char} (pos : 0 < whole ∨ 0 < fraction isDigit (cs.drop whole)) :
    0 < (numberTail isDigit small big floatSuffix whole cs).1 := by
  unfold numberTail
  dsimp only
  split <;> dsimp only <;> omega

theorem number_pos {c : Char} {rest : List Char}
    (starts : c.isDigit || (c == '.' && rest.head?.any Char.isDigit)) :
    0 < (number (c :: rest)).1 := by
  unfold number
  split
  · dsimp only
    split <;> dsimp only <;> omega
  · dsimp only
    split <;> dsimp only <;> omega
  · dsimp only
    omega
  · dsimp only
    omega
  · apply numberTail_pos
    rcases Bool.or_eq_true_iff.mp starts with digit | point
    · exact .inl (digits_pos digit rest)
    · obtain ⟨isPoint, -⟩ := Bool.and_eq_true_iff.mp point
      obtain rfl := beq_iff_eq.mp isPoint
      refine .inr ?_
      have none : digits Char.isDigit ('.' :: rest) = 0 := by
        simp [digits, Char.isDigit]
      rw [none, List.drop_zero, fraction]
      omega

/-- A quoted token counts what opens it. -/
theorem quoted_pos {rest? : Option Nat} {kind : TokenKind} {opening : Nat} (opens : 0 < opening)
    {token : TokenKind × Nat} (read : rest?.map (fun n => (kind, opening + n)) = some token) :
    0 < token.2 := by
  obtain ⟨n, -, rfl⟩ := Option.map_eq_some_iff.mp read
  exact Nat.add_pos_left opens n

/-- A token has at least one character. -/
theorem next?_pos {cs : List Char} {kind : TokenKind} {n : Nat} (read : next? cs = some (kind, n)) :
    0 < n := by
  unfold next? at read
  split at read
  · cases read
  · exact quoted_pos (by decide) read
  · exact quoted_pos (by decide) read
  · exact quoted_pos (by decide) read
  · split at read
    · cases read
      omega
    · split at read
      · next starts =>
        cases read
        exact number_pos starts
      · cases read
        exact symbol_pos _

theorem inOrder_readWithin {bound : Nat} {p : Position} {cs : List Char} {tokens : List Token}
    (read : readWithin bound p cs = some tokens) : InOrder p.byte tokens := by
  induction bound generalizing p cs tokens with
  | zero =>
    rw [readWithin] at read
    split at read
    · cases read
      trivial
    · cases read
  | succ bound ih =>
    rw [readWithin] at read
    dsimp only at read
    split at read
    · cases read
      trivial
    · next behind some =>
      obtain ⟨⟨kind, n⟩, first, read⟩ := Option.bind_eq_some_iff.mp read
      obtain ⟨rest, later, read⟩ := Option.bind_eq_some_iff.mp read
      cases read
      refine ⟨Position.byte_le_pastAll _ _, Position.byte_lt_pastAll _ ?_, ih later⟩
      have pos := next?_pos first
      simp only [ne_eq, List.take_eq_nil_iff, not_or]
      exact ⟨Nat.ne_of_gt pos, some⟩

/-- The tokens of a text stand in order. -/
theorem inOrder_readAll {text : String} {tokens : List Token} (read : readAll text = some tokens) :
    InOrder 0 tokens := by
  unfold readAll at read
  split at read
  · exact (inOrder_readWithin read).mono (Nat.zero_le _)
  · exact inOrder_readWithin read

end Token

/-! ### Cursors -/

namespace Cursor

variable {c c' c'' : Cursor}

/-- The tokens ahead stand in order, behind those that were taken. -/
def Sound (c : Cursor) : Prop := Token.InOrder c.last.byte c.rest

theorem Sound.last_le_start (sound : c.Sound) : c.last.byte ≤ c.start.byte := by
  obtain ⟨rest, last⟩ := c
  cases rest with
  | nil => exact Nat.le_refl _
  | cons t rest => exact sound.1

/-- The second cursor is reached from the first one by taking tokens, if any. -/
structure Before (c c' : Cursor) : Prop where
  sound : c'.Sound
  last : c.last.byte ≤ c'.last.byte
  start : c.start.byte ≤ c'.start.byte

theorem Sound.before (sound : c.Sound) : c.Before c := ⟨sound, Nat.le_refl _, Nat.le_refl _⟩

theorem Before.trans (first : c.Before c') (second : c'.Before c'') : c.Before c'' :=
  ⟨second.sound, Nat.le_trans first.last second.last, Nat.le_trans first.start second.start⟩

/-- Taking a token moves on by more than nothing. -/
theorem Sound.take {t : Token} {rest : List Token} {last : Position}
    (sound : Sound ⟨t :: rest, last⟩) :
    Before ⟨t :: rest, last⟩ ⟨rest, t.extent.stop⟩ ∧ t.extent.start.byte < t.extent.stop.byte := by
  obtain ⟨behind, proper, later⟩ : _ ∧ _ ∧ Token.InOrder _ _ := sound
  have reached : Sound ⟨rest, t.extent.stop⟩ := later
  refine ⟨⟨later, Nat.le_trans behind (Nat.le_of_lt proper), ?_⟩, proper⟩
  exact Nat.le_trans (Nat.le_of_lt proper) reached.last_le_start

end Cursor

/-! ### Rules that take a token -/

namespace Rule

/-- Whether a rule takes a token, provided that all names stand for rules that do. -/
def takes : Rule → Bool
  | token _ | leaf _ _ | symbol _ => true
  | ahead _ | nothing | many _ => false
  | seq r s => r.takes || s.takes
  | either r s => r.takes && s.takes
  | node _ r | field _ r | fold _ _ r | chain _ r _ => r.takes

/-- Whether every node that a rule makes of its own takes a token. -/
def solid : Rule → Bool
  | token _ | leaf _ _ | symbol _ | ahead _ | nothing => true
  | seq r s | either r s | chain _ r s => r.solid && s.solid
  | node _ r => r.takes && r.solid
  | many r | field _ r | fold _ _ r => r.solid

end Rule

namespace Derives

variable {grammar : Symbol → Rule} {r : Rule} {left : Option Syntax} {c c' : Cursor}
  {found : List Syntax}

/-- Derivations only move on. -/
theorem before (derived : Derives grammar r left c found c') (sound : c.Sound) : c.Before c' := by
  induction derived with
  | token | leaf => exact sound.take.1
  | ahead | nothing | stop => exact sound.before
  | seq _ _ ofFirst ofSecond | more _ _ ofFirst ofSecond | step _ _ ofFirst ofSecond =>
    exact (ofFirst sound).trans (ofSecond (ofFirst sound).sound)
  | symbol _ ih | first _ ih | second _ ih | node _ ih | field _ ih | fold _ ih | start _ ih =>
    exact ih sound

theorem start_lt_last (named : ∀ name, (grammar name).takes)
    (derived : Derives grammar r left c found c') (sound : c.Sound) (takes : r.takes) :
    c.start.byte < c'.last.byte := by
  induction derived with
  | token | leaf => exact sound.take.2
  | ahead | nothing | stop | more => cases takes
  | symbol _ ih => exact ih sound (named _)
  | seq first second ofFirst ofSecond =>
    have reached := first.before sound
    rcases Bool.or_eq_true_iff.mp takes with taken | taken
    · exact Nat.lt_of_lt_of_le (ofFirst sound taken) (second.before reached.sound).last
    · exact Nat.lt_of_le_of_lt reached.start (ofSecond reached.sound taken)
  | first _ ih => exact ih sound (Bool.and_eq_true_iff.mp takes).1
  | second _ ih => exact ih sound (Bool.and_eq_true_iff.mp takes).2
  | node _ ih | field _ ih | fold _ ih | start _ ih => exact ih sound takes
  | step first second ofFirst _ =>
    exact Nat.lt_of_lt_of_le (ofFirst sound takes) (second.before (first.before sound).sound).last

end Derives

/-! ### Trees between two bytes -/

/-- Trees that lie between two bytes, one behind the other and none of them empty, as the nodes in
each of them do. -/
inductive Strewn : (lo : Nat) → List Syntax → (hi : Nat) → Prop where
  | nil {lo hi : Nat} : Strewn lo [] hi
  | cons {lo hi : Nat} {kind : String} {field : Option String} {isNamed : Bool} {extent : Extent}
    {children trees : List Syntax} : lo ≤ extent.start.byte → extent.start.byte < extent.stop.byte →
    extent.stop.byte ≤ hi → Strewn extent.start.byte children extent.stop.byte →
    Strewn extent.stop.byte trees hi → Strewn lo (.node kind field isNamed extent children :: trees) hi

namespace Strewn

variable {lo lo' mid hi hi' : Nat} {trees later : List Syntax} {t : Syntax}

theorem mono (strewn : Strewn lo trees hi) (low : lo' ≤ lo) (high : hi ≤ hi') :
    Strewn lo' trees hi' := by
  induction strewn generalizing lo' with
  | nil => exact .nil
  | cons above proper below inside _ _ ih =>
    exact .cons (Nat.le_trans low above) proper (Nat.le_trans below high) inside
      (ih (Nat.le_refl _) high)

theorem append (strewn : Strewn lo trees mid) (alone : Strewn lo later hi)
    (behind : Strewn mid later hi) (high : mid ≤ hi) : Strewn lo (trees ++ later) hi := by
  induction strewn with
  | nil => exact alone
  | cons above proper below inside _ _ ih =>
    have alone := behind.mono below (Nat.le_refl _)
    exact .cons above proper (Nat.le_trans below high) inside (ih alone behind high)

theorem as (strewn : Strewn lo trees hi) (field : Option String) :
    Strewn lo (trees.map (Syntax.as field)) hi := by
  induction strewn with
  | nil => exact .nil
  | cons above proper below inside _ _ ih => exact .cons above proper below inside ih

theorem singleton_iff :
    Strewn lo [t] hi ↔ lo ≤ t.extent.start.byte ∧ t.extent.start.byte < t.extent.stop.byte ∧
      t.extent.stop.byte ≤ hi ∧ Strewn t.extent.start.byte t.children t.extent.stop.byte := by
  constructor
  · rintro ⟨⟩
    exact ⟨‹_›, ‹_›, ‹_›, ‹_›⟩
  · obtain ⟨kind, field, isNamed, extent, children⟩ := t
    rintro ⟨above, proper, below, inside⟩
    exact .cons above proper below inside .nil

theorem of_cons (strewn : Strewn lo (t :: trees) hi) :
    Strewn lo [t] t.extent.stop.byte ∧ t.extent.stop.byte ≤ hi ∧
      Strewn t.extent.stop.byte trees hi := by
  cases strewn with
  | cons above proper below inside behind =>
    exact ⟨.cons above proper (Nat.le_refl _) inside .nil, below, behind⟩

end Strewn

/-- Derived nodes lie between the first token and the last one that are taken, behind the node to the
left. -/
theorem Derives.strewn {grammar : Symbol → Rule}
    (named : ∀ name, (grammar name).takes ∧ (grammar name).solid) {r : Rule} {left : Option Syntax}
    {c c' : Cursor} {found : List Syntax} (derived : Derives grammar r left c found c')
    (solid : r.solid) (sound : c.Sound) {lo : Nat} (low : lo ≤ c.start.byte)
    (behind : ∀ t ∈ left, Strewn lo [t] c.last.byte) : Strewn lo found c'.last.byte := by
  have joined : ∀ {r s : Rule} {c c' c'' : Cursor} {found more : List Syntax} {lo : Nat},
      Derives grammar r none c found c' → Derives grammar s none c' more c'' → c.Sound →
      lo ≤ c.start.byte → (∀ {lo}, lo ≤ c.start.byte → Strewn lo found c'.last.byte) →
      (∀ {lo}, lo ≤ c'.start.byte → Strewn lo more c''.last.byte) →
      Strewn lo (found ++ more) c''.last.byte := by
    intro r s c c' c'' found more lo first second sound low ofFirst ofSecond
    have reached := first.before sound
    exact (ofFirst low).append (ofSecond (Nat.le_trans low reached.start))
      (ofSecond reached.sound.last_le_start) (second.before reached.sound).last
  induction derived generalizing lo with
  | token | ahead | nothing | stop => exact .nil
  | leaf => exact .cons low sound.take.2 (Nat.le_refl _) .nil .nil
  | symbol _ ih => exact ih (named _).2 sound low nofun
  | seq first second ofFirst ofSecond =>
    obtain ⟨solid, solid'⟩ := Bool.and_eq_true_iff.mp solid
    exact joined first second sound low (ofFirst solid sound · nofun)
      (ofSecond solid' (first.before sound).sound · nofun)
  | more first later ofFirst ofLater =>
    exact joined first later sound low (ofFirst solid sound · nofun)
      (ofLater solid (first.before sound).sound · nofun)
  | first _ ih => exact ih (Bool.and_eq_true_iff.mp solid).1 sound low behind
  | second _ ih => exact ih (Bool.and_eq_true_iff.mp solid).2 sound low behind
  | node content ih =>
    obtain ⟨takes, solid⟩ := Bool.and_eq_true_iff.mp solid
    have proper := content.start_lt_last (fun name => (named name).1) sound takes
    exact .cons low proper (Nat.le_refl _) (ih solid sound (Nat.le_refl _) nofun) .nil
  | field _ ih => exact (ih solid sound low nofun).as _
  | @fold kind role r t c c' found content ih =>
    have further := (content.before sound).last
    obtain ⟨above, proper, below, inside⟩ := Strewn.singleton_iff.mp (behind t rfl)
    have content := ih solid sound (Nat.le_trans below sound.last_le_start) nofun
    obtain ⟨kind, field, isNamed, extent, children⟩ := t
    refine .cons above (Nat.lt_of_lt_of_le proper (Nat.le_trans below further)) (Nat.le_refl _)
      ?_ .nil
    exact .cons (Nat.le_refl _) proper (Nat.le_trans below further) inside content
  | start _ ih => exact ih (Bool.and_eq_true_iff.mp solid).1 sound low behind
  | step first second ofFirst ofSecond =>
    have reached := first.before sound
    refine ofSecond (Bool.and_eq_true_iff.mp solid).2 reached.sound (Nat.le_trans low reached.start) ?_
    rintro t ⟨⟩
    exact ofFirst solid sound low behind

/-! ### The grammar -/

theorem Grammar.takes_rule (name : Symbol) : (rule name).takes ∧ (rule name).solid := by
  rcases name with _ | (_ | _) | _ | _ | _ | _ | _ | (_ | _ | _) <;> exact ⟨rfl, rfl⟩

/-- The nodes of a text lie one behind the other, as those in each of them do. -/
theorem Syntax.strewn_of_read? {text : String} {root : Syntax} (read : read? text = some root) :
    Strewn 0 root.children root.extent.stop.byte := by
  obtain ⟨tokens, trees, c, lexed, derived, rfl⟩ := derives_of_read? read
  exact derived.strewn Grammar.takes_rule rfl (Token.inOrder_readAll lexed) (Nat.zero_le _) nofun

end JavaCallGraph.Java
