import JavaCallGraph.Program.Node
import JavaCallGraph.Proofs.TypeName.Varargs
import Mathlib.Data.List.Forall2
import Mathlib.Data.List.Infix

/-!
What a signature tells about its declaration.

A signature lists the parameter types with a comma and a space between them, and generic arguments
hold commas and spaces too. A comma of the list stands where no angle bracket is open, and a comma
inside a type where one is; so the list can be cut into its types again. Collapsing blanks leaves all
other characters in their order, and with them what is open at each comma.
-/

namespace JavaCallGraph

/-! ### Collapsed blanks -/

namespace Text

/-- A text without its blanks. -/
def visible (text : List Char) : List Char := text.filter fun c => !isBlank c

theorem visible_append (text more : List Char) :
    visible (text ++ more) = visible text ++ visible more := List.filter_append ..

theorem visible_cons_of_not_isBlank {c : Char} (shown : isBlank c = false) (text : List Char) :
    visible (c :: text) = c :: visible text := by
  simp [visible, shown]

theorem visible_visible (text : List Char) : visible (visible text) = visible text := by
  simp [visible]

theorem flatten_wordsFrom (run text : List Char) :
    (wordsFrom run text).flatten = run.reverse ++ visible text := by
  fun_induction wordsFrom run text with
  | case1 run empty => simp_all [visible]
  | case2 run empty => simp [visible]
  | case3 run c rest blank empty hyp => simp_all [visible]
  | case4 run c rest blank empty hyp => simp_all [visible]
  | case5 run c rest shown hyp => simp_all [visible]

theorem visible_intercalate {separator : List Char} (blank : visible separator = [])
    (parts : List (List Char)) :
    visible (separator.intercalate parts) = visible parts.flatten := by
  induction parts with
  | nil => simp
  | cons part parts hyp =>
    cases parts with
    | nil => simp
    | cons next parts =>
      rw [List.intercalate_cons_cons, List.flatten_cons, visible_append, visible_append, hyp, blank,
        List.append_nil, visible_append]

theorem visible_collapse (s : String) : visible (collapse s).toList = visible s.toList := by
  have separator : visible " ".toList = [] := by decide
  have parts : (words s).map String.toList = wordsFrom [] s.toList := by
    simp [words, Function.comp_def]
  rw [collapse, String.toList_intercalate, visible_intercalate separator, parts, flatten_wordsFrom,
    List.reverse_nil, List.nil_append, visible_visible]

/-! ### Where a text stops -/

/-- Two beginnings of a text, each with `stop` or nothing behind it, are equal if neither goes on with
`stop` behind the other. -/
theorem append_inj_of_stop (stop : Char) {text text' rest rest' : List Char}
    (head : ∀ c ∈ rest.head?, c = stop) (head' : ∀ c ∈ rest'.head?, c = stop)
    (ends : ∀ back, text' ≠ text ++ stop :: back) (ends' : ∀ back, text ≠ text' ++ stop :: back)
    (same : text ++ rest = text' ++ rest') : text = text' ∧ rest = rest' := by
  rcases List.append_eq_append_iff.1 same with ⟨more, longer, rfl⟩ | ⟨more, longer, rfl⟩
  · cases more with
    | nil => simp [longer]
    | cons c more =>
      obtain rfl := head c (by simp)
      exact absurd longer (ends more)
  · cases more with
    | nil => simp [longer]
    | cons c more =>
      obtain rfl := head' c (by simp)
      exact absurd longer (ends' more)

end Text

/-! ### Types between commas -/

namespace TypeName

open Text

/-- How many angle brackets are open behind a text; negative if it closes more than it opens. -/
def bracketDepth (text : List Char) : Int := text.count '<' - text.count '>'

/-- Angle brackets pair up in the text, and its commas stand between them. -/
structure Enclosing (text : List Char) : Prop where
  closed : bracketDepth text = 0
  /-- No beginning closes more brackets than it opens. -/
  opened : ∀ front back, text = front ++ back → 0 ≤ bracketDepth front
  commas : ∀ front back, text = front ++ ',' :: back → 0 < bracketDepth front

/-- A text that can be told from its neighbours in a list of types. -/
structure SelfContained (text : List Char) : Prop extends Enclosing text where
  notBlank : ∃ c ∈ text, isBlank c = false

theorem selfContained_iff_inits {text : List Char} :
    SelfContained text ↔
      bracketDepth text = 0 ∧ (∀ front ∈ text.inits, 0 ≤ bracketDepth front) ∧
        (∀ front ∈ text.inits, front ++ [','] <+: text → 0 < bracketDepth front) ∧
          text.any fun c => !isBlank c := by
  have notBlank : (text.any fun c => !isBlank c) ↔ ∃ c ∈ text, isBlank c = false := by simp
  rw [notBlank]
  constructor
  · intro contained
    refine ⟨contained.closed, ?_, ?_, contained.notBlank⟩
    · intro front mem
      obtain ⟨back, rfl⟩ := (List.mem_inits front text).1 mem
      exact contained.opened front back rfl
    · rintro front - ⟨back, split⟩
      exact contained.commas front back (by simp [← split])
  · rintro ⟨closed, opened, commas, notBlank⟩
    refine ⟨⟨closed, ?_, ?_⟩, notBlank⟩
    · rintro front back rfl
      exact opened front (by simp)
    · rintro front back rfl
      exact commas front (by simp) ⟨back, by simp⟩

instance (text : List Char) : Decidable (SelfContained text) :=
  decidable_of_iff' _ selfContained_iff_inits

@[simp] theorem bracketDepth_append (text more : List Char) :
    bracketDepth (text ++ more) = bracketDepth text + bracketDepth more := by
  simp only [bracketDepth, List.count_append]
  omega

@[simp] theorem bracketDepth_open (text : List Char) :
    bracketDepth ('<' :: text) = bracketDepth text + 1 := by
  rw [bracketDepth, bracketDepth, List.count_cons_self, List.count_cons_of_ne (by decide)]
  omega

@[simp] theorem bracketDepth_close (text : List Char) :
    bracketDepth ('>' :: text) = bracketDepth text - 1 := by
  rw [bracketDepth, bracketDepth, List.count_cons_self, List.count_cons_of_ne (by decide)]
  omega

theorem bracketDepth_plain {c : Char} (opens : c ≠ '<') (closes : c ≠ '>') (text : List Char) :
    bracketDepth (c :: text) = bracketDepth text := by
  simp [bracketDepth, opens, closes]

theorem bracketDepth_eq_zero {text : List Char} (noOpening : '<' ∉ text) (noClosing : '>' ∉ text) :
    bracketDepth text = 0 := by
  simp [bracketDepth, List.count_eq_zero_of_not_mem, noOpening, noClosing]

theorem bracketDepth_visible (text : List Char) : bracketDepth (visible text) = bracketDepth text := by
  have opening : (visible text).count '<' = text.count '<' := List.count_filter (by decide)
  have closing : (visible text).count '>' = text.count '>' := List.count_filter (by decide)
  rw [bracketDepth, opening, closing, bracketDepth]

/-- Blanks do not matter to where brackets and commas stand. -/
theorem enclosing_visible_iff {text : List Char} : Enclosing (visible text) ↔ Enclosing text := by
  have comma : isBlank ',' = false := by decide
  constructor
  · intro enclosing
    refine ⟨bracketDepth_visible text ▸ enclosing.closed, ?_, ?_⟩
    · rintro front back rfl
      rw [← bracketDepth_visible]
      exact enclosing.opened _ _ (visible_append front back)
    · rintro front back rfl
      rw [← bracketDepth_visible]
      apply enclosing.commas (visible front) (visible back)
      rw [visible_append, visible_cons_of_not_isBlank comma]
  · intro enclosing
    refine ⟨bracketDepth_visible text ▸ enclosing.closed, ?_, ?_⟩
    · intro front back split
      obtain ⟨before, after, rfl, rfl, -⟩ := List.filter_eq_append_iff.1 split
      rw [← visible, bracketDepth_visible]
      exact enclosing.opened before after rfl
    · intro front back split
      obtain ⟨before, after, rfl, rfl, shown⟩ := List.filter_eq_append_iff.1 split
      -- blanks may stand between the last visible character and the comma
      obtain ⟨blanks, rest, rfl, blank, -, -⟩ := List.filter_eq_cons_iff.1 shown
      have none : visible blanks = [] := List.filter_eq_nil_iff.2 blank
      have depth : bracketDepth (before ++ blanks) = bracketDepth (visible before) := by
        rw [← bracketDepth_visible, visible_append, none, List.append_nil]
      rw [← visible, ← depth]
      exact enclosing.commas _ rest (List.append_assoc ..).symm

/-- Collapsing blanks keeps a type self-contained. -/
theorem SelfContained.collapse {s : String} (contained : SelfContained s.toList) :
    SelfContained (Text.collapse s).toList where
  toEnclosing := by
    rw [← enclosing_visible_iff, visible_collapse, enclosing_visible_iff]
    exact contained.toEnclosing
  notBlank := by
    obtain ⟨c, mem, shown⟩ := contained.notBlank
    have kept : c ∈ visible (Text.collapse s).toList := by
      rw [visible_collapse]
      exact List.mem_filter.2 ⟨mem, by simp [shown]⟩
    exact ⟨c, (List.mem_filter.1 kept).1, shown⟩

theorem SelfContained.ne_nil {text : List Char} (contained : SelfContained text) : text ≠ [] := by
  rintro rfl
  simpa using contained.notBlank

/-! ### Cutting a list of types -/

/-- Types with a comma and a space before each. -/
def followers (types : List (List Char)) : List Char := types.flatMap fun t => ',' :: ' ' :: t

theorem head?_followers (types : List (List Char)) : ∀ c ∈ (followers types).head?, c = ',' := by
  cases types <;> simp [followers]

theorem intercalate_cons_eq (type : List Char) (types : List (List Char)) :
    [',', ' '].intercalate (type :: types) = type ++ followers types := by
  induction types generalizing type with
  | nil => simp [followers]
  | cons next types hyp => simp [List.intercalate_cons_cons, hyp, followers]

/-- A comma that follows a whole type is outside of every type. -/
theorem Enclosing.ne_append_comma {text text' : List Char} (enclosing : Enclosing text)
    (enclosing' : Enclosing text') (back : List Char) : text' ≠ text ++ ',' :: back := by
  intro longer
  have inside := enclosing'.commas text back longer
  rw [enclosing.closed] at inside
  exact Int.lt_irrefl 0 inside

theorem followers_inj {types types' : List (List Char)} (enclosing : ∀ t ∈ types, Enclosing t)
    (enclosing' : ∀ t ∈ types', Enclosing t) (same : followers types = followers types') :
    types = types' := by
  induction types generalizing types' with
  | nil =>
    cases types' with
    | nil => rfl
    | cons type' types' => simp [followers] at same
  | cons type types hyp =>
    cases types' with
    | nil => simp [followers] at same
    | cons type' types' =>
      simp only [List.forall_mem_cons] at enclosing enclosing'
      have behind : type ++ followers types = type' ++ followers types' := by
        simpa [followers] using same
      -- the first types end at the same comma, since neither has it inside
      obtain ⟨rfl, rest⟩ := append_inj_of_stop ',' (head?_followers types) (head?_followers types')
        (enclosing.1.ne_append_comma enclosing'.1) (enclosing'.1.ne_append_comma enclosing.1) behind
      rw [hyp enclosing.2 enclosing'.2 rest]

theorem followers_eq {types : List (List Char)} (nonempty : types ≠ []) :
    followers types = ',' :: ' ' :: [',', ' '].intercalate types := by
  obtain ⟨type, types, rfl⟩ := List.exists_cons_of_ne_nil nonempty
  rw [intercalate_cons_eq]
  simp [followers]

theorem intercalate_eq_nil_iff {types : List (List Char)} (contained : ∀ t ∈ types, SelfContained t) :
    [',', ' '].intercalate types = [] ↔ types = [] := by
  cases types with
  | nil => simp
  | cons type types =>
    have nonempty := (contained type List.mem_cons_self).ne_nil
    simp [intercalate_cons_eq, nonempty]

theorem intercalate_inj {types types' : List (List Char)} (contained : ∀ t ∈ types, SelfContained t)
    (contained' : ∀ t ∈ types', SelfContained t)
    (same : [',', ' '].intercalate types = [',', ' '].intercalate types') : types = types' := by
  have both : types = [] ↔ types' = [] := by
    rw [← intercalate_eq_nil_iff contained, ← intercalate_eq_nil_iff contained', same]
  by_cases empty : types = []
  · rw [empty, both.1 empty]
  · apply followers_inj (fun t mem => (contained t mem).toEnclosing)
      (fun t mem => (contained' t mem).toEnclosing)
    rw [followers_eq empty, followers_eq (mt both.2 empty), same]

/-! ### Written types -/

theorem Balanced.bracketDepth_eq_zero {text : List Char} (balanced : Balanced text) :
    bracketDepth text = 0 := by
  induction balanced with
  | nil => rfl
  | plain opens closes _ hyp => rw [bracketDepth_plain opens closes, hyp]
  | nested _ _ innerHyp restHyp => simp [innerHyp, restHyp]

theorem Balanced.bracketDepth_nonneg {text : List Char} (balanced : Balanced text) :
    ∀ front back, text = front ++ back → 0 ≤ bracketDepth front := by
  induction balanced with
  | nil =>
    intro front back split
    obtain ⟨rfl, -⟩ := List.nil_eq_append_iff.1 split
    exact Int.le_refl 0
  | plain opens closes _ hyp =>
    intro front back split
    rcases List.cons_eq_append_iff.1 split with ⟨rfl, -⟩ | ⟨front, rfl, rest⟩
    · exact Int.le_refl 0
    · rw [bracketDepth_plain opens closes]
      exact hyp front back rest
  | @nested inner rest balancedInner _ innerHyp restHyp =>
    intro front back split
    rcases List.cons_eq_append_iff.1 split with ⟨rfl, -⟩ | ⟨front, rfl, behindOpening⟩
    · exact Int.le_refl 0
    rw [bracketDepth_open]
    -- the beginning ends behind the partner of the first bracket, or before it
    rcases List.append_eq_append_iff.1 behindOpening with ⟨behind, rfl, closing⟩ | ⟨more, inside, -⟩
    · have closed := balancedInner.bracketDepth_eq_zero
      rcases List.cons_eq_append_iff.1 closing with ⟨rfl, -⟩ | ⟨behind, rfl, behindClosing⟩
      · simp [closed]
      · have nonneg := restHyp behind back behindClosing
        simp only [bracketDepth_append, bracketDepth_close, closed]
        omega
    · have nonneg := innerHyp front more inside
      omega

namespace Enclosing

variable {text more : List Char}

theorem of_plain (noOpening : '<' ∉ text) (noClosing : '>' ∉ text) (noComma : ',' ∉ text) :
    Enclosing text where
  closed := bracketDepth_eq_zero noOpening noClosing
  opened := by
    rintro front back rfl
    simp only [List.mem_append, not_or] at noOpening noClosing
    exact Int.le_of_eq (bracketDepth_eq_zero noOpening.1 noClosing.1).symm
  commas := by
    rintro front back rfl
    simp at noComma

theorem append (enclosing : Enclosing text) (enclosing' : Enclosing more) :
    Enclosing (text ++ more) where
  closed := by rw [bracketDepth_append, enclosing.closed, enclosing'.closed, Int.add_zero]
  opened front back split := by
    rcases List.append_eq_append_iff.1 split with ⟨behind, rfl, rest⟩ | ⟨rest, inside, -⟩
    · rw [bracketDepth_append, enclosing.closed, Int.zero_add]
      exact enclosing'.opened behind back rest
    · exact enclosing.opened front rest inside
  commas front back split := by
    rcases List.append_eq_append_iff.1 split with ⟨behind, rfl, rest⟩ | ⟨rest, inside, split⟩
    · rw [bracketDepth_append, enclosing.closed, Int.zero_add]
      exact enclosing'.commas behind back rest
    · cases rest with
      | nil =>
        -- the comma begins the second text
        have outside := enclosing'.commas [] back (by simpa using split.symm)
        exact absurd outside (by decide)
      | cons c rest =>
        obtain ⟨rfl, -⟩ := List.cons.inj split
        exact enclosing.commas front rest inside

theorem of_balanced {inner : List Char} (balanced : Balanced inner) :
    Enclosing ('<' :: (inner ++ ['>'])) where
  closed := (Balanced.nested balanced .nil).bracketDepth_eq_zero
  opened := (Balanced.nested balanced .nil).bracketDepth_nonneg
  commas front back split := by
    rcases List.cons_eq_append_iff.1 split with ⟨-, comma⟩ | ⟨front, rfl, behindOpening⟩
    · simp at comma
    · have inside : ∃ rest, inner = front ++ rest := by
        rcases List.append_eq_append_iff.1 behindOpening with ⟨behind, rfl, comma⟩ | ⟨rest, inside, -⟩
        · cases behind <;> simp at comma
        · exact ⟨rest, inside⟩
      obtain ⟨rest, inside⟩ := inside
      have nonneg := balanced.bracketDepth_nonneg front rest inside
      rw [bracketDepth_open]
      omega

end Enclosing

theorem SelfContained.append {text more : List Char} (contained : SelfContained text)
    (enclosing : Enclosing more) : SelfContained (text ++ more) where
  toEnclosing := contained.toEnclosing.append enclosing
  notBlank := by
    obtain ⟨c, mem, shown⟩ := contained.notBlank
    exact ⟨c, List.mem_append_left more mem, shown⟩

theorem Trailer.enclosing {text : List Char} (trails : Trailer text) : Enclosing text := by
  induction trails with
  | nil => exact .of_plain (by simp) (by simp) (by simp)
  | @blank c rest blank _ hyp =>
    have shown : ∀ d, isBlank d = false → d ∉ [c] := by
      rintro d shown mem
      rw [List.mem_singleton.1 mem, blank] at shown
      cases shown
    exact (Enclosing.of_plain (shown _ (by decide)) (shown _ (by decide)) (shown _ (by decide))).append
      hyp
  | @arguments inner rest balanced _ hyp =>
    have split : '<' :: (inner ++ '>' :: rest) = '<' :: (inner ++ ['>']) ++ rest := by simp
    rw [split]
    exact (Enclosing.of_balanced balanced).append hyp

theorem Identifier.enclosing (i : Identifier) : Enclosing i.chars := by
  apply Enclosing.of_plain <;> exact fun mem => ne_of_mem_chars mem (by decide) rfl

theorem Part.enclosing (p : Part) : Enclosing p.chars := p.name.enclosing.append p.trails.enclosing

theorem enclosing_brackets (n : Nat) : Enclosing (brackets n) := by
  induction n with
  | zero => exact .of_plain (by decide) (by decide) (by decide)
  | succ n hyp => exact hyp.append (.of_plain (by decide) (by decide) (by decide))

theorem TypeText.enclosing (t : TypeText) : Enclosing t.chars := by
  refine .append (.append ?_ t.last.enclosing) (enclosing_brackets t.dimensions)
  induction t.outer with
  | nil => exact .of_plain (by simp) (by simp) (by simp)
  | cons p parts hyp =>
    have dot : Enclosing ['.'] := .of_plain (by decide) (by decide) (by decide)
    exact (p.enclosing.append dot).append hyp

theorem TypeText.selfContained (t : TypeText) : SelfContained t.chars where
  toEnclosing := t.enclosing
  notBlank := by
    have first : t.last.name.first ∈ t.last.name.chars := List.mem_cons_self
    refine ⟨t.last.name.first, ?_, Identifier.not_isBlank_of_mem_chars first⟩
    simp [chars, Part.chars, first]

end TypeName

/-! ### Signatures -/

namespace CallableDecl

open JavaCallGraph.TypeName

/-- The name ends at the first parenthesis of the signature, and every parameter type can be told from
the next. -/
structure WellWritten (d : CallableDecl) : Prop where
  name : '(' ∉ d.name.toList
  types : ∀ p ∈ d.parameters, SelfContained p.typeName.toList

theorem wellWritten_iff {d : CallableDecl} :
    d.WellWritten ↔ '(' ∉ d.name.toList ∧ ∀ p ∈ d.parameters, SelfContained p.typeName.toList :=
  ⟨fun written => ⟨written.name, written.types⟩, fun parts => ⟨parts.1, parts.2⟩⟩

instance (d : CallableDecl) : Decidable d.WellWritten := decidable_of_iff' _ wellWritten_iff

theorem WellWritten.parameterTypes {d : CallableDecl} (written : d.WellWritten) :
    ∀ t ∈ d.parameterTypes.map String.toList, SelfContained t := by
  intro t mem
  simp only [CallableDecl.parameterTypes, List.map_map, List.mem_map] at mem
  obtain ⟨p, mem, rfl⟩ := mem
  exact (written.types p mem).collapse

theorem toList_signature (d : CallableDecl) :
    d.signature.toList =
      d.name.toList ++ '(' :: ([',', ' '].intercalate (d.parameterTypes.map String.toList) ++ [')']) := by
  simp [signature]

theorem signature_eq_iff {a b : CallableDecl} (written : a.WellWritten) (written' : b.WellWritten) :
    a.signature = b.signature ↔ a.name = b.name ∧ a.parameterTypes = b.parameterTypes := by
  constructor
  · intro same
    have text := congrArg String.toList same
    rw [toList_signature, toList_signature] at text
    obtain ⟨name, rest⟩ := Text.append_inj_of_stop '(' (by simp) (by simp)
      (fun back longer => written'.name (by simp [longer]))
      (fun back longer => written.name (by simp [longer])) text
    obtain ⟨types, -⟩ := List.append_inj' (List.cons.inj rest).2 rfl
    have parameters := intercalate_inj written.parameterTypes written'.parameterTypes types
    exact ⟨String.toList_inj.1 name,
      (List.map_injective_iff.2 fun _ _ => String.toList_inj.1) parameters⟩
  · rintro ⟨name, types⟩
    rw [signature, signature, name, types]

theorem parameterTypes_eq_iff {a b : CallableDecl} :
    a.parameterTypes = b.parameterTypes ↔
      List.Forall₂ (fun p q => Text.collapse p.typeName = Text.collapse q.typeName)
        a.parameters b.parameters := by
  rw [parameterTypes, parameterTypes, ← List.forall₂_eq_eq_eq, List.forall₂_map_left_iff,
    List.forall₂_map_right_iff]

/-- Written types, also with an ellipsis behind them, are self-contained. Declarations whose parameter
types are so have the same signature exactly if they have the same name and equally many parameters,
pairwise of the same type once blanks are collapsed. -/
theorem signature_determines_parameters :
    (∀ t : TypeText, SelfContained t.text.toList ∧ SelfContained (t.text ++ "...").toList) ∧
      ∀ a b : CallableDecl, a.WellWritten → b.WellWritten →
        (a.signature = b.signature ↔
          a.name = b.name ∧ a.arity = b.arity ∧
            List.Forall₂ (fun p q => Text.collapse p.typeName = Text.collapse q.typeName)
              a.parameters b.parameters) := by
  constructor
  · intro t
    have ellipsis : Enclosing "...".toList := .of_plain (by decide) (by decide) (by decide)
    rw [String.toList_append, TypeText.text, String.toList_ofList]
    exact ⟨t.selfContained, t.selfContained.append ellipsis⟩
  · intro a b written written'
    rw [signature_eq_iff written written', parameterTypes_eq_iff]
    exact and_congr_right fun _ => ⟨fun types => ⟨types.length_eq, types⟩, And.right⟩

/-- A method with two parameters. -/
def binary (first second : String) : CallableDecl :=
  { kind := .method, name := "put", parameters := [⟨first, "map"⟩, ⟨second, "entries"⟩] }

/-- The comma of a generic type is none of the list, and blanks around it are one space. -/
theorem signature_determines_parameters_generic :
    (binary "Map<K,\n  V>" "Entry<K, List<V>>...").WellWritten ∧
      (binary " Map<K,\tV>" "Entry<K, List<V>>...").WellWritten ∧
      (binary "Map<K,\n  V>" "Entry<K, List<V>>...").signature =
        (binary " Map<K,\tV>" "Entry<K, List<V>>...").signature ∧
      List.Forall₂ (fun p q => Text.collapse p.typeName = Text.collapse q.typeName)
        (binary "Map<K,\n  V>" "Entry<K, List<V>>...").parameters
        (binary " Map<K,\tV>" "Entry<K, List<V>>...").parameters := by
  have written : (binary "Map<K,\n  V>" "Entry<K, List<V>>...").WellWritten := by decide
  have written' : (binary " Map<K,\tV>" "Entry<K, List<V>>...").WellWritten := by decide
  have same : (binary "Map<K,\n  V>" "Entry<K, List<V>>...").signature =
      (binary " Map<K,\tV>" "Entry<K, List<V>>...").signature := by decide
  obtain ⟨-, -, types⟩ := (signature_determines_parameters.2 _ _ written written').1 same
  exact ⟨written, written', same, types⟩

-- without pairing brackets a list of two types can read as one type
example :
    { method "put" with parameters := [⟨"Map<K", "key"⟩, ⟨"V>", "value"⟩] : CallableDecl }.signature =
      { method "put" with parameters := [⟨"Map<K, V>", "map"⟩] : CallableDecl }.signature := by
  decide

end CallableDecl

end JavaCallGraph
