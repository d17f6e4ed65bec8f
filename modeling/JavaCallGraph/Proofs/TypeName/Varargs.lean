import JavaCallGraph.Proofs.TypeName.Qualifiers
import JavaCallGraph.Text.IdentifierChar

/-!
Array and varargs suffixes of written types.

Brackets behind a type never change its simple name. An ellipsis does when the type ends in a word
that reads as a package segment, as every primitive type does: the first dot of the ellipsis then
ends a qualifier, and the word goes with it.
-/

namespace JavaCallGraph.TypeName

open Text

/-! ### Written types -/

structure Identifier where
  first : Char
  rest : List Char
  starts : isIdentifierStart first
  continues : ∀ c ∈ rest, isIdentifierPart c

def Identifier.chars (i : Identifier) : List Char := i.first :: i.rest

/-- Every angle bracket in the text has its partner there. -/
inductive Balanced : List Char → Prop
  | nil : Balanced []
  | plain {c : Char} {rest : List Char} (opens : c ≠ '<') (closes : c ≠ '>') :
      Balanced rest → Balanced (c :: rest)
  | nested {inner rest : List Char} :
      Balanced inner → Balanced rest → Balanced ('<' :: (inner ++ '>' :: rest))

/-- What may stand behind a name and is no part of it: blanks and generic arguments. -/
inductive Trailer : List Char → Prop
  | nil : Trailer []
  | blank {c : Char} {rest : List Char} : isBlank c → Trailer rest → Trailer (c :: rest)
  | arguments {inner rest : List Char} :
      Balanced inner → Trailer rest → Trailer ('<' :: (inner ++ '>' :: rest))

/-- A name of a written type with its generic arguments. -/
structure Part where
  name : Identifier
  trailer : List Char := []
  trails : Trailer trailer := by exact .nil

def Part.chars (p : Part) : List Char := p.name.chars ++ p.trailer

def brackets : Nat → List Char
  | 0 => []
  | n + 1 => brackets n ++ ['[', ']']

/-- A written type: names with dots between them, then array dimensions. -/
structure TypeText where
  outer : List Part := []
  last : Part
  dimensions : Nat := 0

namespace TypeText

def chars (t : TypeText) : List Char :=
  t.outer.flatMap (fun p => p.chars ++ ['.']) ++ t.last.chars ++ brackets t.dimensions

def text (t : TypeText) : String := String.ofList t.chars

/-- Whether the text ends in a word that a dot would make a package segment. -/
def endsInSegment (t : TypeText) : Bool :=
  t.dimensions == 0 && isSegment (lastWord t.last.name.chars)

end TypeText

/-! ### Characters of names -/

theorem not_identifier_of_isBlank {c : Char} (blank : isBlank c) :
    isIdentifierStart c = false ∧ isIdentifierPart c = false := by
  -- there are few blanks, so that each can be looked up
  have each : ∀ n ∈ [9, 10, 11, 12, 13, 32, 133, 160, 5760, 8192, 8193, 8194, 8195, 8196, 8197,
      8198, 8199, 8200, 8201, 8202, 8232, 8233, 8239, 8287, 12288],
      isIdentifierStart (Char.ofNat n) = false ∧ isIdentifierPart (Char.ofNat n) = false := by
    decide +kernel
  have listed := each c.toNat (by simp [isBlank] at blank ⊢; omega)
  rwa [Char.ofNat_toNat] at listed

namespace Identifier

variable {i : Identifier} {c : Char}

theorem of_mem_chars (mem : c ∈ i.chars) : isIdentifierStart c ∨ isIdentifierPart c := by
  rcases List.mem_cons.1 mem with rfl | mem
  · exact .inl i.starts
  · exact .inr (i.continues c mem)

theorem ne_of_mem_chars (mem : c ∈ i.chars) {d : Char}
    (foreign : (isIdentifierStart d || isIdentifierPart d) = false) : c ≠ d := by
  rintro rfl
  obtain ⟨start, part⟩ := Bool.or_eq_false_iff.1 foreign
  simpa [start, part] using of_mem_chars mem

theorem not_isBlank_of_mem_chars (mem : c ∈ i.chars) : isBlank c = false := by
  by_contra blank
  obtain ⟨start, part⟩ := not_identifier_of_isBlank (Bool.not_eq_false _ ▸ blank)
  simpa [start, part] using of_mem_chars mem

theorem dot_not_mem_chars (i : Identifier) : '.' ∉ i.chars :=
  fun mem => ne_of_mem_chars mem (by decide) rfl

theorem exists_chars_eq_concat (i : Identifier) :
    ∃ front c, i.chars = front ++ [c] ∧ c ∈ i.chars := by
  obtain ⟨front, c, eq⟩ := List.eq_nil_or_concat i.chars |>.resolve_left (List.cons_ne_nil _ _)
  exact ⟨front, c, by simpa using eq, by simp [eq]⟩

end Identifier

/-! ### Erasing generic arguments and blanks -/

theorem erase_open (depth : Nat) (more : List Char) :
    erase depth ('<' :: more) = erase (depth + 1) more := by
  simp [erase]

theorem erase_close (depth : Nat) (more : List Char) :
    erase (depth + 1) ('>' :: more) = erase depth more := by
  simp [erase]

theorem erase_balanced {text : List Char} (balanced : Balanced text) (depth : Nat)
    (more : List Char) : erase (depth + 1) (text ++ more) = erase (depth + 1) more := by
  induction balanced generalizing depth more with
  | nil => rfl
  | plain opens closes _ hyp => simp [erase, opens, closes, hyp]
  | nested _ _ innerHyp restHyp =>
    rw [List.cons_append, List.append_assoc, erase_open, innerHyp, List.cons_append, erase_close,
      restHyp]

theorem erase_trailer {text : List Char} (trails : Trailer text) (more : List Char) :
    erase 0 (text ++ more) = erase 0 more := by
  induction trails with
  | nil => rfl
  | @blank c rest blank _ hyp =>
    have opens : c ≠ '<' := by rintro rfl; exact absurd blank (by decide)
    have closes : c ≠ '>' := by rintro rfl; exact absurd blank (by decide)
    simp [erase, opens, closes, blank, hyp]
  | arguments balanced _ hyp =>
    rw [List.cons_append, List.append_assoc, erase_open, erase_balanced balanced,
      List.cons_append, erase_close, hyp]

/-- Characters that are kept outside of angle brackets. -/
def isPlain (c : Char) : Bool := c != '<' && c != '>' && !isBlank c

theorem erase_plain {text : List Char} (plain : text.all isPlain) (more : List Char) :
    erase 0 (text ++ more) = text ++ erase 0 more := by
  induction text with
  | nil => rfl
  | cons c text hyp =>
    simp only [List.all_cons, Bool.and_eq_true, isPlain, bne_iff_ne] at plain
    simp_all [erase]

theorem Part.erase_chars (p : Part) (more : List Char) :
    erase 0 (p.chars ++ more) = p.name.chars ++ erase 0 more := by
  have plain : p.name.chars.all isPlain := by
    rw [List.all_eq_true]
    intro c mem
    have opens := Identifier.ne_of_mem_chars mem (d := '<') (by decide)
    have closes := Identifier.ne_of_mem_chars mem (d := '>') (by decide)
    simp [isPlain, opens, closes, Identifier.not_isBlank_of_mem_chars mem]
  rw [chars, List.append_assoc, erase_plain plain, erase_trailer p.trails]

theorem all_isPlain_brackets (n : Nat) : (brackets n).all isPlain := by
  induction n with
  | zero => rfl
  | succ n hyp =>
    rw [brackets, List.all_append, hyp, Bool.true_and]
    decide

theorem dot_not_mem_brackets (n : Nat) : '.' ∉ brackets n := by
  induction n with
  | zero => simp [brackets]
  | succ n hyp => simp [brackets, hyp]

/-! ### The simple name of a normal form -/

/-- What follows the last dot. -/
def lastPart (text : List Char) : List Char := text.rtakeWhile (· ≠ '.')

/-- The simple name of the type with this normal form. -/
def nameOf (normal : List Char) : List Char :=
  ((dropBrackets (dropEllipses normal.reverse)).takeWhile (· ≠ '.')).reverse

theorem simple_eq (raw : String) : simple raw = String.ofList (nameOf (normalize raw).toList) := rfl

theorem dropEllipses_cons {c : Char} (dot : c ≠ '.') (rest : List Char) :
    dropEllipses (c :: rest) = c :: rest := by
  rw [dropEllipses]
  simp [dot]

theorem dropBrackets_of_not_mem {text : List Char} (noBracket : ']' ∉ text) :
    dropBrackets text = text := by
  fun_cases dropBrackets text with
  | case1 => simp at noBracket
  | case2 => rfl

/-- Only dots are dropped from the end. -/
theorem exists_dots (text : List Char) :
    ∃ n, text = List.replicate n '.' ++ dropEllipses text := by
  fun_induction dropEllipses text with
  | case1 rest hyp =>
    obtain ⟨n, eq⟩ := hyp
    exact ⟨n + 3, by simpa [List.replicate_succ] using eq⟩
  | case2 text => exact ⟨0, rfl⟩

theorem nameOf_append_ellipsis (text : List Char) :
    nameOf (text ++ ['.', '.', '.']) = nameOf text := by
  simp [nameOf, dropEllipses]

theorem nameOf_append_brackets (text : List Char) {c : Char} (dot : c ≠ '.') :
    nameOf (text ++ [c] ++ ['[', ']']) = nameOf (text ++ [c]) := by
  simp [nameOf, dropEllipses_cons, dropBrackets, dot]

theorem nameOf_concat (text : List Char) {c : Char} (dot : c ≠ '.') (bracket : c ≠ ']') :
    nameOf (text ++ [c]) = lastPart (text ++ [c]) := by
  have stays : dropBrackets (c :: text.reverse) = c :: text.reverse := by
    rw [dropBrackets]
    simp [bracket]
  simp [nameOf, lastPart, List.rtakeWhile, dropEllipses_cons dot, stays]

/-- Two dots that are no part of an ellipsis leave no name. -/
theorem nameOf_append_two_dots {text : List Char} (noDot : ∀ front, text ≠ front ++ ['.']) :
    nameOf (text ++ ['.', '.']) = [] := by
  obtain rfl | ⟨front, c, rfl⟩ := text.eq_nil_or_concat
  · rfl
  · have dot : c ≠ '.' := by rintro rfl; simpa using noDot front
    have stays : dropEllipses ('.' :: '.' :: c :: front.reverse) =
        '.' :: '.' :: c :: front.reverse := by
      rw [dropEllipses]
      simp [dot]
    simp [nameOf, stays, dropBrackets]

/-- A name is the last part of what stands before the final dots. -/
theorem exists_stem {text : List Char} (noBracket : ']' ∉ text) :
    ∃ stem n, text = stem ++ List.replicate n '.' ∧ nameOf text = lastPart stem := by
  obtain ⟨n, dots⟩ := exists_dots text.reverse
  have eq : text = (dropEllipses text.reverse).reverse ++ List.replicate n '.' := by
    simpa using congrArg List.reverse dots
  refine ⟨(dropEllipses text.reverse).reverse, n, eq, ?_⟩
  have stays : dropBrackets (dropEllipses text.reverse) = dropEllipses text.reverse := by
    apply dropBrackets_of_not_mem
    intro mem
    apply noBracket
    rw [eq]
    exact List.mem_append_left _ (List.mem_reverse.2 mem)
  rw [nameOf, stays, lastPart, List.rtakeWhile, List.reverse_reverse]

theorem lastPart_append (text : List Char) {word : List Char} (noDot : '.' ∉ word) :
    lastPart (text ++ word) = lastPart text ++ word := by
  induction word using List.reverseRecOn with
  | nil => simp
  | append_singleton word c hyp =>
    simp only [List.mem_append, List.mem_singleton, not_or] at noDot
    rw [← List.append_assoc, lastPart, List.rtakeWhile_concat, ← lastPart, hyp noDot.1]
    simp [Ne.symm noDot.2]

theorem takeWhile_isWord {text : List Char} (words : ∀ c ∈ text.takeWhile (· ≠ '.'), isWord c) :
    text.takeWhile isWord = text.takeWhile (· ≠ '.') := by
  induction text with
  | nil => rfl
  | cons c text hyp =>
    have noWord : isWord '.' = false := by decide
    by_cases dot : c = '.'
    · simp [dot, noWord]
    · simp_all

theorem lastWord_eq_lastPart {text : List Char} (words : ∀ c ∈ lastPart text, isWord c) :
    lastWord text = lastPart text := by
  rw [lastWord, lastPart, List.rtakeWhile, List.rtakeWhile, takeWhile_isWord]
  simpa [lastPart, List.rtakeWhile] using words

/-! ### An ellipsis behind a reading -/

namespace Reading

variable {r : Reading}

theorem result_read_ellipsis (r : Reading) :
    (r.read ['.', '.', '.']).result =
      if r.held = [] then r.result ++ ['.', '.', '.'] else r.kept ++ ['.', '.'] := by
  by_cases empty : r.held = [] <;> simp [next_dot, result, empty]

theorem nameOf_result (valid : r.Valid) (holds : r.held ≠ []) :
    nameOf r.result = lastPart r.kept ++ r.held := by
  obtain ⟨segment, -⟩ := valid.held holds
  rw [← lastPart_append r.kept (dot_not_mem_segment segment), result]
  obtain ⟨front, c, eq⟩ := r.held.eq_nil_or_concat.resolve_left holds
  have ascii : isAsciiWord c := isAsciiWord_of_mem_segment segment (by simp [eq])
  rw [eq, List.concat_eq_append, ← List.append_assoc]
  apply nameOf_concat
  · rintro rfl
    exact absurd ascii (by decide)
  · rintro rfl
    exact absurd ascii (by decide)

/-- Where the word held back is dropped, two dots leave another name: to leave the same, that word
would have to stand before a dot that was kept. -/
theorem nameOf_kept_ne (valid : r.Valid) (holds : r.held ≠ []) (noBracket : ']' ∉ r.kept) :
    nameOf (r.kept ++ ['.', '.']) ≠ nameOf r.result := by
  intro same
  rw [nameOf_result valid holds] at same
  by_cases ends : ∃ front, r.kept = front ++ ['.']
  · obtain ⟨front, eq⟩ := ends
    have closed : lastPart r.kept = [] := by simp [lastPart, eq]
    obtain ⟨stem, n, frontEq, name⟩ : ∃ stem n, front = stem ++ List.replicate n '.' ∧
        nameOf front = lastPart stem := exists_stem fun mem => noBracket (by simp [eq, mem])
    rw [closed, List.nil_append, eq, List.append_assoc, List.singleton_append,
      nameOf_append_ellipsis, name] at same
    obtain ⟨segment, -⟩ := valid.held holds
    have word : lastWord stem = r.held := by
      rw [lastWord_eq_lastPart, same]
      intro c mem
      exact isWord_of_isAsciiWord (isAsciiWord_of_mem_segment segment (same ▸ mem))
    have kept : r.kept = stem ++ '.' :: List.replicate n '.' := by
      rw [eq, frontEq, List.append_assoc, ← List.replicate_succ', List.replicate_succ]
    rw [← word, valid.unqualified stem _ kept] at segment
    exact Bool.false_ne_true segment
  · rw [nameOf_append_two_dots (not_exists.1 ends)] at same
    exact holds (List.append_eq_nil_iff.1 same.symm).2

end Reading

/-! ### Suffixes of written types -/

theorem toList_normalize (raw : String) :
    (normalize raw).toList = (({} : Reading).read (erase 0 raw.toList)).result := by
  rw [Reading.result_read, normalize, String.toList_ofList]
  rfl

namespace TypeText

/-- The state of reading in front of the last name. -/
def front (t : TypeText) : Reading :=
  ({} : Reading).read (t.outer.flatMap fun p => p.name.chars ++ ['.'])

/-- The state of reading behind the whole type. -/
def reading (t : TypeText) : Reading :=
  t.front.read (t.last.name.chars ++ brackets t.dimensions)

theorem valid_front (t : TypeText) : t.front.Valid := Reading.valid_start.read _

theorem valid_reading (t : TypeText) : t.reading.Valid := t.valid_front.read _

theorem front_eq (t : TypeText) : t.front = { kept := t.front.kept } := by
  obtain empty | ⟨parts, p, eq⟩ := t.outer.eq_nil_or_concat
  · simp [front, empty]
  · -- a dot has just been read
    simp [front, eq, ← List.append_assoc, Reading.read_append, Reading.next_dot]

theorem lastWord_front (t : TypeText) : lastWord t.front.kept = [] := by
  have closed := t.valid_front.inWord.1 (by rw [front_eq])
  rw [front_eq] at closed
  simpa [Reading.result] using closed

theorem result_reading (t : TypeText) :
    t.reading.result = t.front.kept ++ t.last.name.chars ++ brackets t.dimensions := by
  have noDot : '.' ∉ t.last.name.chars ++ brackets t.dimensions := by
    simp [Identifier.dot_not_mem_chars, dot_not_mem_brackets]
  rw [reading, Reading.result_read_of_no_dot noDot, front_eq, Reading.result, List.append_nil,
    List.append_assoc]

theorem exists_result_eq_concat (t : TypeText) :
    ∃ text c, t.reading.result = text ++ [c] ∧ c ≠ '.' ∧ (t.dimensions ≠ 0 → c = ']') := by
  rw [result_reading]
  cases t.dimensions with
  | zero =>
    obtain ⟨text, c, eq, mem⟩ := t.last.name.exists_chars_eq_concat
    refine ⟨t.front.kept ++ text, c, ?_, Identifier.ne_of_mem_chars mem (by decide), by simp⟩
    rw [brackets, List.append_nil, eq, List.append_assoc]
  | succ n =>
    refine ⟨t.front.kept ++ t.last.name.chars ++ brackets n ++ ['['], ']', ?_, by decide, by simp⟩
    simp [brackets]

/-- The last word is held back if it would be a package segment before a dot. -/
theorem holds_iff (t : TypeText) : t.reading.held ≠ [] ↔ t.endsInSegment := by
  rw [t.valid_reading.holds_iff, endsInSegment]
  by_cases zero : t.dimensions = 0
  · rw [result_reading, zero, brackets, List.append_nil, lastWord_append t.lastWord_front]
    simp
  · obtain ⟨text, c, eq, -, bracket⟩ := t.exists_result_eq_concat
    have closed : lastWord t.reading.result = [] := by
      rw [eq, bracket zero, lastWord_concat_eq_nil_iff]
      decide
    simp [closed, zero, isSegment]

theorem bracket_not_mem_kept {t : TypeText} (zero : t.dimensions = 0) : ']' ∉ t.reading.kept := by
  intro mem
  have named : ∀ i : Identifier, ']' ∉ i.chars :=
    fun i mem => Identifier.ne_of_mem_chars mem (by decide) rfl
  rw [reading, front, ← Reading.read_append] at mem
  rcases Reading.mem_result_read (List.mem_append_left _ mem) with start | written
  · simp [Reading.result] at start
  · simp [zero, brackets, named] at written

theorem erase_outer (parts : List Part) (more : List Char) :
    erase 0 (parts.flatMap (fun p => p.chars ++ ['.']) ++ more) =
      parts.flatMap (fun p => p.name.chars ++ ['.']) ++ erase 0 more := by
  induction parts with
  | nil => rfl
  | cons p parts hyp =>
    have dot : ['.'].all isPlain := by decide
    simp only [List.flatMap_cons, List.append_assoc]
    rw [p.erase_chars, erase_plain dot, hyp]

/-- Reading the normal form of a type goes on behind it. -/
theorem toList_normalize_append (t : TypeText) (suffix : String)
    (plain : suffix.toList.all isPlain) :
    (normalize (t.text ++ suffix)).toList = (t.reading.read suffix.toList).result := by
  rw [toList_normalize, reading, front, ← Reading.read_append, ← Reading.read_append,
    String.toList_append, text, String.toList_ofList, chars]
  have rest : erase 0 suffix.toList = suffix.toList := by
    simpa [erase] using erase_plain plain []
  rw [List.append_assoc, List.append_assoc, erase_outer, t.last.erase_chars,
    erase_plain (all_isPlain_brackets _), rest]
  simp

theorem toList_normalize_text (t : TypeText) : (normalize t.text).toList = t.reading.result := by
  simpa using t.toList_normalize_append "" rfl

theorem simple_append_brackets (t : TypeText) : simple (t.text ++ "[]") = simple t.text := by
  obtain ⟨text, c, eq, dot, -⟩ := t.exists_result_eq_concat
  have noDot : '.' ∉ "[]".toList := by decide
  rw [simple_eq, simple_eq, t.toList_normalize_append "[]" (by decide), toList_normalize_text,
    Reading.result_read_of_no_dot noDot, eq]
  exact congrArg String.ofList (nameOf_append_brackets text dot)

theorem toList_normalize_append_ellipsis (t : TypeText) :
    (normalize (t.text ++ "...")).toList =
      if t.endsInSegment then t.reading.kept ++ ['.', '.']
      else t.reading.result ++ ['.', '.', '.'] := by
  rw [t.toList_normalize_append "..." (by decide)]
  by_cases ends : t.endsInSegment
  · rw [if_pos ends]
    exact t.reading.result_read_ellipsis.trans (if_neg (t.holds_iff.2 ends))
  · rw [if_neg ends]
    exact t.reading.result_read_ellipsis.trans (if_pos (not_not.1 (mt t.holds_iff.1 ends)))

theorem normalize_append_ellipsis (t : TypeText) :
    normalize (t.text ++ "...") =
      if t.endsInSegment then String.ofList ((normalize t.text).toList.rdropWhile isWord) ++ ".."
      else normalize t.text ++ "..." := by
  apply String.toList_inj.1
  rw [toList_normalize_append_ellipsis]
  split_ifs with ends
  · rw [t.valid_reading.kept_eq (t.holds_iff.2 ends), toList_normalize_text]
    simp
  · simp [toList_normalize_text]

theorem simple_append_ellipsis_eq_iff (t : TypeText) :
    simple (t.text ++ "...") = simple t.text ↔ t.endsInSegment = false := by
  rw [simple_eq, simple_eq, String.ofList_inj, toList_normalize_text,
    toList_normalize_append_ellipsis]
  by_cases ends : t.endsInSegment
  · have zero : t.dimensions = 0 := by
      rw [endsInSegment, Bool.and_eq_true] at ends
      exact beq_iff_eq.1 ends.1
    simpa [ends] using
      Reading.nameOf_kept_ne t.valid_reading (t.holds_iff.2 ends) (bracket_not_mem_kept zero)
  · simp [ends, nameOf_append_ellipsis]

/-- Brackets keep the simple name of a type, and so does an ellipsis, unless the type ends in a word
that reads as a package segment: that word is lost with the first dot, and the name is another. -/
theorem varargs_lose_only_segments (t : TypeText) :
    simple (t.text ++ "[]") = simple t.text ∧
      normalize (t.text ++ "...") =
        (if t.endsInSegment then String.ofList ((normalize t.text).toList.rdropWhile isWord) ++ ".."
        else normalize t.text ++ "...") ∧
      (simple (t.text ++ "...") = simple t.text ↔ t.endsInSegment = false) :=
  ⟨t.simple_append_brackets, t.normalize_append_ellipsis, t.simple_append_ellipsis_eq_iff⟩

/-- The primitive type `int`. -/
def int : TypeText where
  last := { name := ⟨'i', ['n', 't'], by decide, List.all_eq_true.1 (by decide)⟩ }

theorem varargs_of_int_unnamed :
    int.text = "int" ∧ simple int.text = "int" ∧ simple (int.text ++ "[]") = "int" ∧
      simple (int.text ++ "...") = "" := by
  decide

end TypeText

end JavaCallGraph.TypeName
