import JavaCallGraph.Program.Naming
import JavaCallGraph.Proofs.TypeName.Varargs

/-!
Normal forms of type names.

A normal form has neither angle brackets nor blanks, and nowhere in it does a package qualifier begin
at a word boundary. Dropping qualifiers joins the texts on both sides of each of them, but makes no new
one: what stands before a qualifier ends in no word, and what stands behind it begins with no
qualifier, since that would have been dropped with it. So normalizing gives a normal form, and leaves
normal forms as they are.
-/

namespace JavaCallGraph.TypeName

open Text

/-! ### Normal forms -/

/-- One or more package segments, each with its dot. -/
inductive IsQualifier : List Char → Prop
  | segment {word : List Char} : isSegment word → IsQualifier (word ++ ['.'])
  | more {word rest : List Char} : isSegment word → IsQualifier rest → IsQualifier (word ++ '.' :: rest)

/-- A word begins or ends between two texts. -/
def Boundary (before after : List Char) : Prop := before.getLast?.any isWord ≠ after.head?.any isWord

structure IsNormal (text : List Char) : Prop where
  noOpening : '<' ∉ text
  noClosing : '>' ∉ text
  noBlank : ∀ c ∈ text, isBlank c = false
  noQualifier : ∀ before qualifier after, text = before ++ qualifier ++ after →
    Boundary before (qualifier ++ after) → ¬IsQualifier qualifier

theorem IsQualifier.exists_segment {text : List Char} (qualifier : IsQualifier text) :
    ∃ word rest, isSegment word ∧ text = word ++ '.' :: rest := by
  cases qualifier with
  | @segment word segment => exact ⟨word, [], segment, rfl⟩
  | @more word rest segment _ => exact ⟨word, rest, segment, rfl⟩

theorem exists_cons_of_isSegment {word : List Char} (segment : isSegment word) :
    ∃ c rest, word = c :: rest ∧ isWord c := by
  cases word with
  | nil => cases segment
  | cons c rest =>
    exact ⟨c, rest, rfl, isWord_of_isAsciiWord (isAsciiWord_of_mem_segment segment List.mem_cons_self)⟩

theorem lastWord_segment {word : List Char} (segment : isSegment word) : lastWord word = word :=
  lastWord_of_all fun _ mem => isWord_of_isAsciiWord (isAsciiWord_of_mem_segment segment mem)

/-- Before a segment there is a boundary where no word is open. -/
theorem boundary_segment_iff {word : List Char} (segment : isSegment word) (before after : List Char) :
    Boundary before (word ++ after) ↔ lastWord before = [] := by
  obtain ⟨c, rest, rfl, isWord⟩ := exists_cons_of_isSegment segment
  obtain rfl | ⟨front, d, rfl⟩ := before.eq_nil_or_concat
  · simp [Boundary, lastWord, isWord]
  · rw [List.concat_eq_append, lastWord_concat_eq_nil_iff]
    simp [Boundary, isWord]

/-- Qualifiers begin at no boundary exactly if no dot ends a package segment. -/
theorem unqualified_iff {text : List Char} :
    Unqualified text ↔ ∀ before qualifier after, text = before ++ qualifier ++ after →
      Boundary before (qualifier ++ after) → ¬IsQualifier qualifier := by
  constructor
  · rintro unqualified before _ after rfl boundary qualifier
    obtain ⟨word, rest, segment, rfl⟩ := qualifier.exists_segment
    rw [List.append_assoc, boundary_segment_iff segment] at boundary
    have ends := unqualified (before ++ word) (rest ++ after) (by simp)
    rw [lastWord_append boundary, lastWord_segment segment, segment] at ends
    cases ends
  · rintro free before after rfl
    by_contra ends
    rw [Bool.not_eq_false] at ends
    -- the word before the dot begins at a boundary
    have front : before = before.rdropWhile isWord ++ lastWord before :=
      List.rdropWhile_append_rtakeWhile.symm
    have closed : lastWord (before.rdropWhile isWord) = [] := List.rtakeWhile_eq_nil_iff.2 fun some =>
      List.rdropWhile_last_not isWord before some
    apply free (before.rdropWhile isWord) (lastWord before ++ ['.']) after
    · nth_rewrite 1 [front]
      simp
    · rw [List.append_assoc, boundary_segment_iff ends]
      exact closed
    · exact .segment ends

theorem isNormal_iff {text : List Char} : IsNormal text ↔ text.all isPlain ∧ Unqualified text := by
  rw [unqualified_iff, List.all_eq_true]
  constructor
  · rintro ⟨noOpening, noClosing, noBlank, noQualifier⟩
    refine ⟨fun c mem => ?_, noQualifier⟩
    have opening : c ≠ '<' := fun same => noOpening (same ▸ mem)
    have closing : c ≠ '>' := fun same => noClosing (same ▸ mem)
    simp [isPlain, opening, closing, noBlank c mem]
  · rintro ⟨plain, noQualifier⟩
    refine ⟨fun mem => ?_, fun mem => ?_, fun c mem => ?_, noQualifier⟩
    · exact absurd (plain _ mem) (by decide)
    · exact absurd (plain _ mem) (by decide)
    · have isPlain := plain c mem
      simp only [TypeName.isPlain, Bool.and_eq_true, Bool.not_eq_true'] at isPlain
      exact isPlain.2

/-! ### Normalizing gives normal forms -/

theorem all_isPlain_erase (depth : Nat) (text : List Char) : (erase depth text).all isPlain := by
  induction text generalizing depth with
  | nil => rfl
  | cons c text hyp =>
    rw [erase]
    split_ifs with opens closes keeps
    · exact hyp _
    · exact hyp _
    · simp only [Bool.and_eq_true, Bool.not_eq_true'] at keeps
      simp [isPlain, opens, closes, keeps.2, hyp]
    · exact hyp _

theorem Reading.Valid.unqualified_result {r : Reading} (valid : r.Valid) : Unqualified r.result := by
  by_cases empty : r.held = []
  · rw [result, empty, List.append_nil]
    exact valid.unqualified
  · exact valid.unqualified.append (dot_not_mem_segment (valid.held empty).1)

theorem isNormal_normalize (s : String) : IsNormal (normalize s).toList := by
  rw [isNormal_iff, toList_normalize]
  refine ⟨List.all_eq_true.2 fun c mem => ?_, (Reading.valid_start.read _).unqualified_result⟩
  rcases Reading.mem_result_read mem with start | kept
  · simp [Reading.result] at start
  · exact List.all_eq_true.1 (all_isPlain_erase 0 s.toList) c kept

/-! ### Normal forms stay -/

theorem Unqualified.of_append {text more : List Char} (unqualified : Unqualified (text ++ more)) :
    Unqualified text := by
  rintro before after rfl
  exact unqualified before (after ++ more) (by simp)

/-- A text without qualifiers is kept: at each dot no word is held back. -/
theorem Reading.result_read_of_unqualified {text : List Char} (unqualified : Unqualified text) :
    (({} : Reading).read text).result = text := by
  induction text using List.reverseRecOn with
  | nil => rfl
  | append_singleton text c hyp =>
    have kept := hyp unqualified.of_append
    rw [read_append, read_cons, read_nil]
    by_cases dot : c = '.'
    · subst dot
      have empty : (({} : Reading).read text).held = [] := by
        by_contra holds
        have segment := (valid_start.read text).holds_iff.1 holds
        rw [kept, unqualified text [] rfl] at segment
        cases segment
      have whole : (({} : Reading).read text).kept = text := by simpa [result, empty] using kept
      rw [next_dot, if_pos empty, whole]
      simp [result]
    · rw [result_next dot, kept]

theorem normalize_of_isNormal {s : String} (normal : IsNormal s.toList) : normalize s = s := by
  obtain ⟨plain, unqualified⟩ := isNormal_iff.1 normal
  have stays : erase 0 s.toList = s.toList := by simpa [erase] using erase_plain plain []
  apply String.toList_inj.1
  rw [toList_normalize, stays, Reading.result_read_of_unqualified unqualified]

theorem normalize_normalize (s : String) : normalize (normalize s) = normalize s :=
  normalize_of_isNormal (isNormal_normalize s)

/-! ### Blanks -/

/-- The second text is the first one with blanks inserted. -/
inductive Spaced : List Char → List Char → Prop
  | nil : Spaced [] []
  | keep (c : Char) {text spaced : List Char} : Spaced text spaced → Spaced (c :: text) (c :: spaced)
  | insert {c : Char} {text spaced : List Char} :
      isBlank c → Spaced text spaced → Spaced text (c :: spaced)

theorem erase_blank {c : Char} (blank : isBlank c) (depth : Nat) (text : List Char) :
    erase depth (c :: text) = erase depth text := by
  have opens : c ≠ '<' := by rintro rfl; exact absurd blank (by decide)
  have closes : c ≠ '>' := by rintro rfl; exact absurd blank (by decide)
  simp [erase, opens, closes, blank]

theorem Spaced.erase_eq {text spaced : List Char} (blanks : Spaced text spaced) (depth : Nat) :
    erase depth spaced = erase depth text := by
  induction blanks generalizing depth with
  | nil => rfl
  | keep c _ hyp => simp only [erase, hyp]
  | insert blank _ hyp => rw [erase_blank blank, hyp]

theorem normalize_of_spaced {s t : String} (blanks : Spaced s.toList t.toList) :
    normalize t = normalize s := by
  rw [normalize, blanks.erase_eq, normalize]

end TypeName

theorem QualifiedSignature.key_normalize (sig : QualifiedSignature) :
    { sig with parameterTypes := sig.parameterTypes.map TypeName.normalize }.key = sig.key := by
  simp only [key, List.map_map, Function.comp_def, TypeName.normalize_normalize]

namespace TypeName

/-- Normalizing comes to its end in one step: it gives a normal form, which it leaves as it is. Blanks
anywhere in the text do not matter to it, and the key of a signature does not tell a parameter type
from its normal form. -/
theorem normalize_reaches_normal_form (s : String) :
    normalize (normalize s) = normalize s ∧ IsNormal (normalize s).toList ∧
      (∀ t : String, Spaced s.toList t.toList → normalize t = normalize s) ∧
      ∀ sig : QualifiedSignature,
        { sig with parameterTypes := sig.parameterTypes.map normalize }.key = sig.key :=
  ⟨normalize_normalize s, isNormal_normalize s, fun _ => normalize_of_spaced,
    QualifiedSignature.key_normalize⟩

/-- A stray closing bracket inside a qualifier, a word beyond ASCII that is no segment before another
one that is, and blanks. -/
theorem normalize_reaches_normal_form_nested :
    Spaced "a>b.Map<x.K>.É.e...".toList "a> b .Map<x. K>.É.e...".toList ∧
      normalize "a>b.Map<x.K>.É.e..." = "Map.É..." ∧ normalize "Map.É..." = "Map.É..." ∧
      normalize "a> b .Map<x. K>.É.e..." = "Map.É..." := by
  have blanks : Spaced "a>b.Map<x.K>.É.e...".toList "a> b .Map<x. K>.É.e...".toList := by
    repeat constructor
  have normal : normalize "a>b.Map<x.K>.É.e..." = "Map.É..." := by decide
  obtain ⟨again, -, spaced, -⟩ := normalize_reaches_normal_form "a>b.Map<x.K>.É.e..."
  rw [normal] at again
  exact ⟨blanks, normal, again, (spaced _ blanks).trans normal⟩

end TypeName

end JavaCallGraph
