import JavaCallGraph.TypeName
import Mathlib.Data.List.DropRight

/-!
How package qualifiers are found.

`dropQualifiers` reads a text once and holds back the word it is in, until it sees what ends that
word. `Reading` is the state of this pass, with what it has kept so far. The state can be told from
the text it stands for: the word held back is the last word, when that reads as a package segment,
and no dot was kept behind such a word.
-/

namespace JavaCallGraph.TypeName

open Text

/-! ### Words and segments -/

/-- The word that a text ends in; empty when the last character belongs to no word. -/
def lastWord (text : List Char) : List Char := text.rtakeWhile isWord

/-- Whether a word is a package segment, should a dot follow. -/
def isSegment (word : List Char) : Bool := word.head?.any startsSegment && word.all isAsciiWord

theorem isWord_of_isAsciiWord {c : Char} (ascii : isAsciiWord c) : isWord c := by
  simp [isWord, ascii]

theorem isAsciiWord_of_startsSegment {c : Char} (starts : startsSegment c) : isAsciiWord c := by
  have classes : isAsciiWord c = (c.isUpper || c.isLower || c.isDigit || c == '_') := rfl
  simp only [startsSegment, Bool.or_eq_true] at starts
  simp only [classes, Bool.or_eq_true]
  exact starts.imp_left fun lower => .inl (.inr lower)

theorem lastWord_concat (text : List Char) (c : Char) :
    lastWord (text ++ [c]) = if isWord c then lastWord text ++ [c] else [] :=
  List.rtakeWhile_concat isWord text c

theorem lastWord_concat_eq_nil_iff (text : List Char) (c : Char) :
    lastWord (text ++ [c]) = [] ↔ isWord c = false := by
  rw [lastWord_concat]
  split <;> simp_all

/-- A text after which no word is open adds nothing to the words that follow. -/
theorem lastWord_append {front : List Char} (closed : lastWord front = []) (text : List Char) :
    lastWord (front ++ text) = lastWord text := by
  induction text using List.reverseRecOn with
  | nil => simpa [lastWord] using closed
  | append_singleton text c hyp => rw [← List.append_assoc, lastWord_concat, lastWord_concat, hyp]

theorem lastWord_of_all {word : List Char} (all : ∀ c ∈ word, isWord c) : lastWord word = word :=
  List.rtakeWhile_eq_self_iff.2 all

theorem isSegment_append {word : List Char} (nonempty : word ≠ []) (more : List Char) :
    isSegment (word ++ more) = (isSegment word && more.all isAsciiWord) := by
  obtain ⟨c, rest, rfl⟩ := List.exists_cons_of_ne_nil nonempty
  simp [isSegment, Bool.and_assoc]

theorem isAsciiWord_of_mem_segment {word : List Char} (segment : isSegment word) {c : Char}
    (mem : c ∈ word) : isAsciiWord c := by
  simp only [isSegment, Bool.and_eq_true, List.all_eq_true] at segment
  exact segment.2 c mem

theorem dot_not_mem_segment {word : List Char} (segment : isSegment word) : '.' ∉ word := by
  intro mem
  have ascii := isAsciiWord_of_mem_segment segment mem
  exact absurd ascii (by decide)

/-! ### Texts without qualifiers -/

/-- No dot of the text ends a package segment. -/
def Unqualified (text : List Char) : Prop :=
  ∀ before after, text = before ++ '.' :: after → isSegment (lastWord before) = false

theorem Unqualified.append {text more : List Char} (unqualified : Unqualified text)
    (noDot : '.' ∉ more) : Unqualified (text ++ more) := by
  intro before after split
  obtain ⟨middle, rfl, rest⟩ | ⟨behind, rfl, rest⟩ := List.append_eq_append_iff.1 split
  · simp [rest] at noDot
  · cases behind with
    | nil => simp [← List.nil_append more ▸ rest] at noDot
    | cons c behind =>
      obtain ⟨rfl, -⟩ := List.cons.inj rest
      exact unqualified before behind rfl

theorem Unqualified.concat_dot {text : List Char} (unqualified : Unqualified text)
    (noSegment : isSegment (lastWord text) = false) : Unqualified (text ++ ['.']) := by
  intro before after split
  obtain rfl | ⟨after, c, rfl⟩ := after.eq_nil_or_concat
  · rwa [← (List.append_inj' split rfl).1]
  · rw [List.concat_eq_append, ← List.cons_append, ← List.append_assoc] at split
    exact unqualified before after (List.append_inj' split rfl).1

/-! ### The pass over a text -/

/-- Where `dropQualifiers` stands in a text: what it has kept, the word it holds back, and whether
the last character read belongs to a word. -/
structure Reading where
  kept : List Char := []
  held : List Char := []
  inWord : Bool := false

namespace Reading

/-- Read one more character. -/
def next (r : Reading) (c : Char) : Reading :=
  if r.held.isEmpty then
    if startsSegment c && !r.inWord then { r with held := [c], inWord := true }
    else { r with kept := r.kept ++ [c], inWord := isWord c }
  else if isAsciiWord c then { r with held := r.held ++ [c], inWord := true }
  else if c = '.' then { r with held := [], inWord := false }
  else { kept := r.kept ++ r.held ++ [c], held := [], inWord := isWord c }

def read (r : Reading) (text : List Char) : Reading := text.foldl next r

/-- What comes out if the text ends here. -/
def result (r : Reading) : List Char := r.kept ++ r.held

@[simp] theorem read_nil (r : Reading) : r.read [] = r := rfl

@[simp] theorem read_cons (r : Reading) (c : Char) (text : List Char) :
    r.read (c :: text) = (r.next c).read text := rfl

theorem read_append (r : Reading) (text more : List Char) :
    r.read (text ++ more) = (r.read text).read more := List.foldl_append

theorem result_read (r : Reading) (text : List Char) :
    (r.read text).result = r.kept ++ dropQualifiers r.held.reverse r.inWord text := by
  induction text generalizing r with
  | nil => simp [result, dropQualifiers]
  | cons c text hyp =>
    rw [read_cons, hyp, dropQualifiers, next, List.isEmpty_reverse]
    split_ifs <;> simp_all

/-- The state agrees with the text it stands for. -/
structure Valid (r : Reading) : Prop where
  inWord : r.inWord = false ↔ lastWord r.result = []
  held : r.held ≠ [] → isSegment r.held ∧ lastWord r.kept = []
  free : r.held = [] → isSegment (lastWord r.kept) = false
  unqualified : Unqualified r.kept

theorem valid_start : Valid {} where
  inWord := by simp [result, lastWord]
  held := by simp
  free _ := rfl
  unqualified := by simp [Unqualified]

namespace Valid

variable {r : Reading} {c : Char}

theorem hold (valid : r.Valid) (empty : r.held = []) (starts : startsSegment c)
    (outside : r.inWord = false) : Valid { r with held := [c], inWord := true } where
  inWord := by
    have word := isWord_of_isAsciiWord (isAsciiWord_of_startsSegment starts)
    simp [result, lastWord_concat, word]
  held _ := by
    have closed := valid.inWord.1 outside
    rw [result, empty, List.append_nil] at closed
    exact ⟨by simp [isSegment, starts, isAsciiWord_of_startsSegment starts], closed⟩
  free empty := by simp at empty
  unqualified := valid.unqualified

theorem pass (valid : r.Valid) (empty : r.held = [])
    (stays : (startsSegment c && !r.inWord) = false) :
    Valid { r with kept := r.kept ++ [c], inWord := isWord c } where
  inWord := by simp [result, empty, lastWord_concat_eq_nil_iff]
  held holds := absurd empty holds
  free _ := by
    rw [lastWord_concat]
    split
    case isFalse => rfl
    case isTrue =>
      by_cases closed : lastWord r.kept = []
      · -- a word begins with `c`
        have outside : r.inWord = false := valid.inWord.2 (by simpa [result, empty] using closed)
        simp_all [isSegment]
      · rw [isSegment_append closed, valid.free empty, Bool.false_and]
  unqualified := by
    by_cases dot : c = '.'
    · subst dot
      exact valid.unqualified.concat_dot (valid.free empty)
    · exact valid.unqualified.append (by simpa using Ne.symm dot)

theorem extend (valid : r.Valid) (holds : r.held ≠ []) (ascii : isAsciiWord c) :
    Valid { r with held := r.held ++ [c], inWord := true } where
  inWord := by
    simp [result, ← List.append_assoc, lastWord_concat, isWord_of_isAsciiWord ascii]
  held _ := by
    obtain ⟨segment, closed⟩ := valid.held holds
    exact ⟨by simp [isSegment_append holds, segment, ascii], closed⟩
  free empty := by simp at empty
  unqualified := valid.unqualified

theorem drop (valid : r.Valid) (holds : r.held ≠ []) :
    Valid { r with held := [], inWord := false } where
  inWord := by simp [result, (valid.held holds).2]
  held holds := absurd rfl holds
  free _ := by simp [(valid.held holds).2, isSegment]
  unqualified := valid.unqualified

theorem giveBack (valid : r.Valid) (holds : r.held ≠ []) (foreign : isAsciiWord c = false)
    (dot : c ≠ '.') : Valid ⟨r.kept ++ r.held ++ [c], [], isWord c⟩ where
  inWord := by rw [result, List.append_nil, lastWord_concat_eq_nil_iff]
  held holds := absurd rfl holds
  free _ := by
    rw [lastWord_concat]
    split
    · -- the word that `c` goes on with holds a character that no segment has
      simp [isSegment, foreign]
    · rfl
  unqualified := by
    have noDot := dot_not_mem_segment (valid.held holds).1
    rw [List.append_assoc]
    exact valid.unqualified.append (by simp [noDot, Ne.symm dot])

theorem next (valid : r.Valid) (c : Char) : (r.next c).Valid := by
  rw [Reading.next]
  split_ifs with empty starts ascii dot
  · simp only [Bool.and_eq_true, Bool.not_eq_true'] at starts
    exact valid.hold (List.isEmpty_iff.1 empty) starts.1 starts.2
  · exact valid.pass (List.isEmpty_iff.1 empty) (Bool.not_eq_true _ ▸ starts)
  · exact valid.extend (mt List.isEmpty_iff.2 empty) ascii
  · exact valid.drop (mt List.isEmpty_iff.2 empty)
  · exact valid.giveBack (mt List.isEmpty_iff.2 empty) (Bool.not_eq_true _ ▸ ascii) dot

theorem read (valid : r.Valid) (text : List Char) : (r.read text).Valid := by
  induction text generalizing r with
  | nil => exact valid
  | cons c text hyp => exact hyp (valid.next c)

theorem held_eq_lastWord (valid : r.Valid) (holds : r.held ≠ []) : r.held = lastWord r.result := by
  obtain ⟨segment, closed⟩ := valid.held holds
  rw [result, lastWord_append closed, lastWord_of_all]
  intro c mem
  exact isWord_of_isAsciiWord (isAsciiWord_of_mem_segment segment mem)

/-- A word is held back exactly when it reads as a package segment. -/
theorem holds_iff (valid : r.Valid) : r.held ≠ [] ↔ isSegment (lastWord r.result) := by
  constructor
  · intro holds
    rw [← valid.held_eq_lastWord holds]
    exact (valid.held holds).1
  · intro segment empty
    rw [result, empty, List.append_nil, valid.free empty] at segment
    exact Bool.false_ne_true segment

theorem kept_eq (valid : r.Valid) (holds : r.held ≠ []) : r.kept = r.result.rdropWhile isWord := by
  have whole : r.kept ++ r.held = r.result.rdropWhile isWord ++ r.held := by
    nth_rewrite 2 [valid.held_eq_lastWord holds]
    exact List.rdropWhile_append_rtakeWhile.symm
  exact List.append_cancel_right whole

end Valid

theorem result_next {c : Char} (dot : c ≠ '.') (r : Reading) :
    (r.next c).result = r.result ++ [c] := by
  rw [next]
  split_ifs <;> simp_all [result]

/-- Without a dot nothing is dropped. -/
theorem result_read_of_no_dot {text : List Char} (noDot : '.' ∉ text) (r : Reading) :
    (r.read text).result = r.result ++ text := by
  induction text generalizing r with
  | nil => simp
  | cons c text hyp =>
    simp only [List.mem_cons, not_or] at noDot
    rw [read_cons, hyp noDot.2, result_next (Ne.symm noDot.1), List.append_assoc,
      List.singleton_append]

/-- A dot drops the word held back, or is kept if there is none. -/
theorem next_dot (r : Reading) :
    r.next '.' = { kept := if r.held = [] then r.kept ++ ['.'] else r.kept } := by
  have starts : startsSegment '.' = false := by decide
  have ascii : isAsciiWord '.' = false := by decide
  have word : isWord '.' = false := by decide
  by_cases empty : r.held = [] <;> simp [next, empty, starts, ascii, word]

theorem mem_result_next {r : Reading} {c d : Char} (mem : d ∈ (r.next c).result) :
    d ∈ r.result ∨ d = c := by
  rw [next] at mem
  split_ifs at mem <;> simp_all [result] <;> tauto

theorem mem_result_read {r : Reading} {text : List Char} {d : Char}
    (mem : d ∈ (r.read text).result) : d ∈ r.result ∨ d ∈ text := by
  induction text generalizing r with
  | nil => exact .inl mem
  | cons c text hyp =>
    rcases hyp mem with before | behind
    · rcases mem_result_next before with before | rfl
      · exact .inl before
      · exact .inr (by simp)
    · exact .inr (List.mem_cons_of_mem c behind)

end Reading

end JavaCallGraph.TypeName
