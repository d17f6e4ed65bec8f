import JavaCallGraph.Proofs.Java.Derivation
import JavaCallGraph.Proofs.Java.NodeTypes

/-!
What a grammar says of the nodes that it makes.

A rule tells in advance which kinds of nodes it can lead to, in which fields they stand and how many
of them there are. So a grammar can be compared with a table of node types once, rule by rule, and
every tree that it derives is then such as the table has it.
-/

namespace JavaCallGraph.Java

namespace Rule

/-! ### What a rule leads to -/

/-- The fields and kinds of the nodes that a rule can lead to, given those of the names. -/
def yields (kinds : Symbol → List String) : Rule → List (Option String × String)
  | token _ | ahead _ | nothing => []
  | leaf kind _ | node kind _ | fold kind _ _ => [(none, kind)]
  | symbol name => (kinds name).map (none, ·)
  | seq r s | either r s | chain _ r s => r.yields kinds ++ s.yields kinds
  | many r => r.yields kinds
  | field name r => (r.yields kinds).map fun y => (some name, y.2)

/-- How many nodes there are at most; two or more stand for any number. A name stands for one. -/
def most : Rule → Nat
  | token _ | ahead _ | nothing => 0
  | leaf _ _ | node _ _ | fold _ _ _ | symbol _ => 1
  | seq r s => r.most + s.most
  | either r s | chain _ r s => max r.most s.most
  | many r => 2 * r.most
  | field _ r => r.most

/-- How many nodes there are in a field at most. -/
def mostIn (slot : Option String) : Rule → Nat
  | token _ | ahead _ | nothing => 0
  | leaf _ _ | node _ _ | fold _ _ _ | symbol _ => if slot.isNone then 1 else 0
  | seq r s => r.mostIn slot + s.mostIn slot
  | either r s | chain _ r s => max (r.mostIn slot) (s.mostIn slot)
  | many r => 2 * r.mostIn slot
  | field name r => if slot = some name then r.most else 0

/-- How many nodes there are at least, given that number for the names. -/
def least (names : Symbol → Nat) : Rule → Nat
  | token _ | ahead _ | nothing | many _ => 0
  | leaf _ _ | node _ _ | fold _ _ _ => 1
  | symbol name => names name
  | seq r s => r.least names + s.least names
  | either r s => min (r.least names) (s.least names)
  | chain _ r _ => min (r.least names) 1
  | field _ r => r.least names

end Rule

/-- What is known of the names of a grammar. -/
structure Signature where
  /-- The kinds of the nodes that a name leads to. -/
  kinds : Symbol → List String
  /-- How many nodes there are at least. -/
  least : Symbol → Nat

namespace Rule

/-- Whether a node of the kind around the nodes of a rule, and around one in a field before them, is
such as a table lists. A call has at least two children. -/
def fits (s : Signature) (types : NodeTypes) (kind : String) (role? : Option (Option String))
    (lefts : List String) (r : Rule) : Bool :=
  kind != "line_comment" && kind != "block_comment" &&
  ((callKinds.lookup kind).isNone || decide (2 ≤ r.least s.least + role?.toList.length)) &&
  match types.lookup kind with
  | none => true
  | some slots =>
    (r.yields s.kinds).all (fun y => slots.any (·.admits y.1 y.2)) &&
    role?.all (fun role => lefts.all fun kind => slots.any (·.admits role kind)) &&
    slots.all fun slot => slot.isMultiple ||
      decide (r.mostIn slot.field + (role?.toList.filter (· == slot.field)).length ≤ 1)

/-- Whether every node that a rule makes of its own fits, where the node to its left is of one of the
given kinds. -/
def conforms (s : Signature) (types : NodeTypes) : List String → Rule → Bool
  | _, token _ | _, ahead _ | _, nothing | _, symbol _ => true
  | _, leaf kind _ => nothing.fits s types kind none []
  | _, seq r t => r.conforms s types [] && t.conforms s types []
  | lefts, either r t => r.conforms s types lefts && t.conforms s types lefts
  | _, many r | _, field _ r => r.conforms s types []
  | _, node kind r => r.fits s types kind none [] && r.conforms s types []
  | lefts, fold kind role r => r.fits s types kind (some role) lefts && r.conforms s types []
  | lefts, chain _ r t => r.conforms s types lefts &&
      t.conforms s types ((r.yields s.kinds ++ t.yields s.kinds).map (·.2))

end Rule

/-- What is known of the names is right, and every node that their rules make fits. -/
structure Signature.Suits (s : Signature) (types : NodeTypes) (grammar : Symbol → Rule) : Prop where
  kinds : ∀ name, ∀ y ∈ (grammar name).yields s.kinds, y.1 = none ∧ y.2 ∈ s.kinds name
  least : ∀ name, s.least name ≤ (grammar name).least s.least
  most : ∀ name, (grammar name).most ≤ 1
  conforms : ∀ name, (grammar name).conforms s types []

namespace Syntax

@[simp] theorem field_as (field : Option String) : (t : Syntax) → (t.as field).field = field
  | .node _ _ _ _ _ => rfl

@[simp] theorem kind_as (field : Option String) : (t : Syntax) → (t.as field).kind = t.kind
  | .node _ _ _ _ _ => rfl

/-- Whether a node is such as a table lists, and has at least two children if it is a call. -/
def isRegular (types : NodeTypes) (t : Syntax) : Bool :=
  t.counts && ((callKinds.lookup t.kind).isNone || decide (2 ≤ t.children.length)) && t.fits types

theorem counts_of_everywhere {types : NodeTypes} {t : Syntax}
    (regular : t.everywhere (isRegular types)) : t.counts := by
  have here := (everywhere_iff.mp regular).1
  rw [isRegular, Bool.and_eq_true, Bool.and_eq_true] at here
  exact here.1.1

/-- The field that a node itself stands in plays no part. -/
theorem everywhere_isRegular_as {types : NodeTypes} {field : Option String} :
    {t : Syntax} → t.everywhere (isRegular types) → (t.as field).everywhere (isRegular types)
  | .node _ _ _ _ _, regular => regular

end Syntax

open Syntax (counts_of_everywhere)

namespace Derives

variable {grammar : Symbol → Rule} {s : Signature} {types : NodeTypes} {r : Rule}
  {left : Option Syntax} {c c' : Cursor} {found : List Syntax}

/-! ### What is derived -/

theorem mem_yields (suits : s.Suits types grammar) (derived : Derives grammar r left c found c') :
    ∀ t ∈ found, (t.field, t.kind) ∈ r.yields s.kinds := by
  induction derived with
  | token | ahead | nothing | stop => exact List.forall_mem_nil _
  | leaf | node | fold => simp [Rule.yields, Syntax.field, Syntax.kind]
  | @symbol name left c c' found _ ih =>
    intro t member
    obtain ⟨plain, kind⟩ := suits.kinds name _ (ih t member)
    simp only at plain
    rw [plain]
    exact List.mem_map_of_mem kind
  | seq _ _ ofFirst ofSecond =>
    rw [List.forall_mem_append]
    exact ⟨fun t member => List.mem_append_left _ (ofFirst t member),
      fun t member => List.mem_append_right _ (ofSecond t member)⟩
  | first _ ih | start _ ih => exact fun t member => List.mem_append_left _ (ih t member)
  | second _ ih | step _ _ _ ih => exact fun t member => List.mem_append_right _ (ih t member)
  | more _ _ ofFirst ofLater => exact List.forall_mem_append.mpr ⟨ofFirst, ofLater⟩
  | field _ ih =>
    intro t member
    obtain ⟨u, listed, rfl⟩ := List.mem_map.mp member
    rw [Syntax.field_as, Syntax.kind_as]
    exact List.mem_map_of_mem (f := fun y : Option String × String => (some _, y.2)) (ih u listed)

theorem length_le_most (suits : s.Suits types grammar)
    (derived : Derives grammar r left c found c') (few : r.most ≤ 1) : found.length ≤ r.most := by
  induction derived with
  | token | ahead | nothing | stop => exact Nat.zero_le _
  | leaf | node | fold => exact Nat.le_refl 1
  | @symbol name left c c' found _ ih => exact Nat.le_trans (ih (suits.most name)) (suits.most name)
  | seq _ _ ofFirst ofSecond =>
    rw [Rule.most] at few ⊢
    have first := ofFirst (by omega)
    have second := ofSecond (by omega)
    rw [List.length_append]
    omega
  | first _ ih | start _ ih =>
    exact Nat.le_trans (ih (Nat.le_trans (Nat.le_max_left _ _) few)) (Nat.le_max_left _ _)
  | second _ ih | step _ _ _ ih =>
    exact Nat.le_trans (ih (Nat.le_trans (Nat.le_max_right _ _) few)) (Nat.le_max_right _ _)
  | more _ _ ofFirst ofLater =>
    have later := ofLater few
    rw [Rule.most] at few later ⊢
    have first := ofFirst (by omega)
    rw [List.length_append]
    omega
  | field _ ih =>
    rw [List.length_map]
    exact ih few

theorem length_le_mostIn (suits : s.Suits types grammar)
    (derived : Derives grammar r left c found c') {slot : Option String}
    (few : r.mostIn slot ≤ 1) : (found.filter (·.field == slot)).length ≤ r.mostIn slot := by
  induction derived with
  | token | ahead | nothing | stop => exact Nat.zero_le _
  | leaf | node | fold => cases slot <;> exact Nat.le_refl _
  | @symbol name left c c' found derived ih =>
    cases slot with
    | none =>
      have few := suits.most name
      have all := Nat.le_trans (derived.length_le_most suits few) few
      exact Nat.le_trans (List.length_filter_le _ _) all
    | some field =>
      -- the nodes of a name are in no field
      rw [List.filter_eq_nil_iff.mpr fun t member => ?_]
      · exact Nat.zero_le _
      · have plain := (suits.kinds name _ (derived.mem_yields suits t member)).1
        simp only at plain
        simp [plain]
  | seq _ _ ofFirst ofSecond =>
    rw [Rule.mostIn] at few ⊢
    have first := ofFirst (by omega)
    have second := ofSecond (by omega)
    rw [List.filter_append, List.length_append]
    omega
  | first _ ih | start _ ih =>
    exact Nat.le_trans (ih (Nat.le_trans (Nat.le_max_left _ _) few)) (Nat.le_max_left _ _)
  | second _ ih | step _ _ _ ih =>
    exact Nat.le_trans (ih (Nat.le_trans (Nat.le_max_right _ _) few)) (Nat.le_max_right _ _)
  | more _ _ ofFirst ofLater =>
    have later := ofLater few
    rw [Rule.mostIn] at few later ⊢
    have first := ofFirst (by omega)
    rw [List.filter_append, List.length_append]
    omega
  | @field name r left c c' found content _ =>
    rw [Rule.mostIn] at few ⊢
    split at few
    · next same =>
      rw [if_pos same]
      refine Nat.le_trans (List.length_filter_le _ _) ?_
      rw [List.length_map]
      exact content.length_le_most suits few
    · next other =>
      rw [if_neg other, List.filter_eq_nil_iff.mpr fun t member => ?_]
      · exact Nat.zero_le _
      · obtain ⟨u, -, rfl⟩ := List.mem_map.mp member
        simpa using Ne.symm other

theorem least_le_length (suits : s.Suits types grammar)
    (derived : Derives grammar r left c found c') : r.least s.least ≤ found.length := by
  induction derived with
  | token | ahead | nothing | stop | more => exact Nat.zero_le _
  | leaf | node | fold => exact Nat.le_refl 1
  | @symbol name left c c' found _ ih => exact Nat.le_trans (suits.least name) ih
  | seq _ _ ofFirst ofSecond =>
    rw [List.length_append]
    exact Nat.add_le_add ofFirst ofSecond
  | first _ ih => exact Nat.le_trans (Nat.min_le_left _ _) ih
  | second _ ih => exact Nat.le_trans (Nat.min_le_right _ _) ih
  | start _ ih => exact Nat.le_trans (Nat.min_le_left _ _) ih
  | step => exact Nat.min_le_right _ _
  | field _ ih =>
    rw [List.length_map]
    exact ih

/-! ### Nodes -/

/-- A node around derived ones is regular, if the table was found to fit. -/
theorem isRegular_node (suits : s.Suits types grammar)
    (derived : Derives grammar r none c found c') {kind : String} {role? : Option (Option String)}
    {lefts : List String} (fits : r.fits s types kind role? lefts) (before : List Syntax)
    (roles : before.map (·.field) = role?.toList) (kinds : ∀ t ∈ before, t.kind ∈ lefts)
    (count : ∀ t ∈ before ++ found, t.counts) (extent : Extent) :
    (Syntax.node kind none true extent (before ++ found)).isRegular types := by
  have length : role?.toList.length = before.length := by rw [← roles, List.length_map]
  have enough := derived.least_le_length suits
  simp only [Rule.fits, Bool.and_eq_true, Bool.or_eq_true, bne_iff_ne, decide_eq_true_eq] at fits
  obtain ⟨⟨⟨notLine, notBlock⟩, wide⟩, table⟩ := fits
  simp only [Syntax.isRegular, Bool.and_eq_true, Bool.or_eq_true, decide_eq_true_eq]
  refine ⟨⟨?_, ?_⟩, ?_⟩
  · simp [Syntax.counts, Syntax.isNamed, Syntax.isComment, Syntax.kind, notLine, notBlock]
  · refine wide.imp_right fun wide => ?_
    rw [Syntax.children, List.length_append]
    omega
  · unfold Syntax.fits
    rw [Syntax.kind]
    split
    · rfl
    · next slots listed =>
      rw [listed] at table
      simp only [Bool.and_eq_true, List.all_eq_true, Bool.or_eq_true, decide_eq_true_eq] at table ⊢
      obtain ⟨⟨ofFound, ofLeft⟩, single⟩ := table
      have all : (Syntax.node kind none true extent (before ++ found)).namedChildren =
          before ++ found := List.filter_eq_self.mpr count
      rw [all]
      refine ⟨⟨fun t member => .inl (count t member), ?_⟩, fun slot among => ?_⟩
      · rw [List.forall_mem_append]
        refine ⟨fun t member => ?_, fun t member => ofFound _ (derived.mem_yields suits t member)⟩
        have role : role? = some t.field := by
          rw [← Option.mem_toList, ← roles]
          exact List.mem_map_of_mem member
        rw [role, Option.all_some] at ofLeft
        exact List.all_eq_true.mp ofLeft t.kind (kinds t member)
      · refine (single slot among).imp_right fun few => ?_
        have here := derived.length_le_mostIn suits (Nat.le_trans (Nat.le_add_right _ _) few)
        have lefts : (before.filter (·.field == slot.field)).length =
            (role?.toList.filter (· == slot.field)).length := by
          rw [← roles, List.filter_map, List.length_map]
          rfl
        rw [List.filter_append, List.length_append]
        omega

/-- All derived nodes are regular. -/
theorem everywhere_isRegular (suits : s.Suits types grammar)
    (derived : Derives grammar r left c found c') {lefts : List String}
    (conforms : r.conforms s types lefts)
    (regular : ∀ t ∈ left, t.kind ∈ lefts ∧ t.everywhere (Syntax.isRegular types)) :
    ∀ t ∈ found, t.everywhere (Syntax.isRegular types) := by
  induction derived generalizing lefts with
  | token | ahead | nothing | stop => exact List.forall_mem_nil _
  | @leaf kind test left t rest last _ =>
    have bare : Derives grammar .nothing none ⟨rest, last⟩ [] ⟨rest, last⟩ := .nothing
    rw [List.forall_mem_singleton, Syntax.everywhere_iff]
    exact ⟨bare.isRegular_node suits conforms [] rfl (List.forall_mem_nil _) (List.forall_mem_nil _) _,
      List.forall_mem_nil _⟩
  | symbol _ ih => exact ih (suits.conforms _) nofun
  | seq _ _ ofFirst ofSecond =>
    obtain ⟨conforms, conforms'⟩ := Bool.and_eq_true_iff.mp conforms
    exact List.forall_mem_append.mpr ⟨ofFirst conforms nofun, ofSecond conforms' nofun⟩
  | first _ ih | start _ ih => exact ih (Bool.and_eq_true_iff.mp conforms).1 regular
  | second _ ih => exact ih (Bool.and_eq_true_iff.mp conforms).2 regular
  | more _ _ ofFirst ofLater =>
    have again := @ofLater lefts conforms nofun
    exact List.forall_mem_append.mpr ⟨ofFirst conforms nofun, again⟩
  | node content ih =>
    obtain ⟨fits, conforms⟩ := Bool.and_eq_true_iff.mp conforms
    have inside := ih conforms nofun
    rw [List.forall_mem_singleton, Syntax.everywhere_iff]
    exact ⟨content.isRegular_node suits fits [] rfl (List.forall_mem_nil _)
      (fun t member => counts_of_everywhere (inside t member)) _, inside⟩
  | field _ ih =>
    intro t member
    obtain ⟨u, listed, rfl⟩ := List.mem_map.mp member
    exact Syntax.everywhere_isRegular_as (ih conforms nofun u listed)
  | @fold kind role r t c c' found content ih =>
    obtain ⟨fits, conforms⟩ := Bool.and_eq_true_iff.mp conforms
    obtain ⟨kind, before⟩ := regular t rfl
    have inside : ∀ u ∈ [t.as role] ++ found, u.everywhere (Syntax.isRegular types) := by
      rw [List.forall_mem_append, List.forall_mem_singleton]
      exact ⟨Syntax.everywhere_isRegular_as before, ih conforms nofun⟩
    rw [List.forall_mem_singleton, Syntax.everywhere_iff]
    refine ⟨content.isRegular_node suits fits [t.as role] (by simp) (by simpa using kind)
      (fun t member => counts_of_everywhere (inside t member)) _, inside⟩
  | @step isOnce r s left c c' c'' t u first _ ofFirst ofSecond =>
    refine ofSecond (Bool.and_eq_true_iff.mp conforms).2 ?_
    rintro _ ⟨⟩
    have kind := first.mem_yields suits t (List.mem_singleton_self t)
    exact ⟨List.mem_map_of_mem (f := Prod.snd) kind,
      ofFirst conforms regular t (List.mem_singleton_self t)⟩

end Derives

/-! ### The grammar of Java -/

namespace Grammar

def typeDeclarationKinds : List String :=
  ["class_declaration", "interface_declaration", "enum_declaration", "annotation_type_declaration",
    "record_declaration"]

def signature : Signature where
  kinds
    | .expression | .operand _ => NodeTypes.expressionKinds
    | .value => NodeTypes.annotationKinds ++ ["array_initializer"] ++ NodeTypes.expressionKinds
    | .annotationUse => NodeTypes.annotationKinds
    | .type => NodeTypes.typeKinds
    | .pattern => ["record_pattern", "type_pattern"]
    | .statement => statementKinds ++ typeDeclarationKinds ++
      ["local_variable_declaration", "block", "switch_expression", "break_statement",
        "continue_statement"]
    | .member _ => typeDeclarationKinds ++
      ["block", "static_initializer", "constructor_declaration", "compact_constructor_declaration",
        "method_declaration", "field_declaration", "constant_declaration",
        "annotation_type_element_declaration"]
  least
    | .statement | .member _ => 0
    | .expression | .operand _ | .value | .annotationUse | .type | .pattern => 1

def names : List Symbol :=
  [.expression, .operand true, .operand false, .value, .annotationUse, .type, .pattern, .statement,
    .member .classBody, .member .interfaceBody, .member .annotationBody]

theorem mem_names (name : Symbol) : name ∈ names := by
  rcases name with _ | (_ | _) | _ | _ | _ | _ | _ | (_ | _ | _) <;> simp [names]

/-- The rules of all names and of a file, compared with a table. -/
def agrees (types : NodeTypes) : Bool :=
  file.conforms signature types [] && names.all fun name =>
    (rule name).conforms signature types [] &&
    ((rule name).yields signature.kinds).all (fun y =>
      y.1.isNone && (signature.kinds name).contains y.2) &&
    decide (signature.least name ≤ (rule name).least signature.least) &&
    decide ((rule name).most ≤ 1)

theorem suits_of_agrees {types : NodeTypes} (agrees : agrees types) :
    signature.Suits types rule := by
  have each : ∀ name, _ := fun name =>
    List.all_eq_true.mp (Bool.and_eq_true_iff.mp agrees).2 name (mem_names name)
  simp only [Bool.and_eq_true, List.all_eq_true, Option.isNone_iff_eq_none, List.contains_iff_mem,
    decide_eq_true_eq] at each
  exact {
    kinds := fun name => (each name).1.1.2
    least := fun name => (each name).1.2
    most := fun name => (each name).2
    conforms := fun name => (each name).1.1.1 }

end Grammar

/-- Blocks, and what else stands in them outside of all statements. -/
def NodeTypes.bodies : NodeTypes :=
  let statements := Grammar.signature.kinds .statement
  [("block", [.plain statements]),
    ("constructor_body", [.plain ("explicit_constructor_invocation" :: statements)]),
    ("break_statement", [.plain ["identifier"]]), ("continue_statement", [.plain ["identifier"]])]

theorem Grammar.agrees_tables : agrees (NodeTypes.grammar ++ NodeTypes.bodies) := by
  decide +kernel

namespace Syntax

/-- If the grammar agrees with a table, then so do all nodes of a text. -/
theorem isRegular_of_read? {types : NodeTypes} (agrees : Grammar.agrees types) {text : String}
    {root : Syntax} (read : read? text = some root) :
    root.kind = "program" ∧ root.isNamed ∧ ∀ t ∈ root.children, t.everywhere (isRegular types) := by
  obtain ⟨tokens, trees, c, -, derived, rfl⟩ := derives_of_read? read
  exact ⟨rfl, rfl, derived.everywhere_isRegular (Grammar.suits_of_agrees agrees)
    (Bool.and_eq_true_iff.mp agrees).1 nofun⟩

theorem fits_append {first second : NodeTypes}
    (apart : second.all fun entry => (first.lookup entry.1).isNone) {t : Syntax}
    (fits : t.fits (first ++ second)) : t.fits first ∧ t.fits second := by
  unfold Syntax.fits at fits ⊢
  rw [List.lookup_append] at fits
  cases found : second.lookup t.kind with
  | none =>
    rw [found, Option.or_none] at fits
    exact ⟨fits, rfl⟩
  | some slots =>
    have none := List.all_eq_true.mp apart _ (mem_of_lookup found)
    rw [Option.isNone_iff_eq_none] at none
    rw [none, found] at fits
    rw [none]
    exact ⟨rfl, fits⟩

theorem bodies_apart :
    NodeTypes.bodies.all fun entry => (NodeTypes.grammar.lookup entry.1).isNone := by
  cbv

theorem fitsGrammar_of_isRegular {t : Syntax}
    (regular : t.isRegular (NodeTypes.grammar ++ NodeTypes.bodies)) :
    t.fitsGrammar ∧ t.fits NodeTypes.bodies := by
  simp only [isRegular, Bool.and_eq_true] at regular
  obtain ⟨ofGrammar, ofBodies⟩ := fits_append bodies_apart regular.2
  rw [fitsGrammar, regular.1.1, ofGrammar]
  exact ⟨rfl, ofBodies⟩

/-- The tree of a text is such as the grammar has it. -/
theorem fitsGrammar_of_read? {text : String} {root : Syntax} (read : read? text = some root) :
    root.kind = "program" ∧ root.everywhere fitsGrammar := by
  obtain ⟨file, named, inside⟩ := isRegular_of_read? Grammar.agrees_tables read
  refine ⟨file, everywhere_iff.mpr ⟨?_, fun t among => ?_⟩⟩
  · rw [fitsGrammar, fits, counts, isComment, named, file]
    rfl
  · exact everywhere_mono (fun _ regular => (fitsGrammar_of_isRegular regular).1) (inside t among)

theorem fits_bodies_of_read? {text : String} {root : Syntax} (read : read? text = some root) :
    root.everywhere (fits NodeTypes.bodies) := by
  obtain ⟨file, -, inside⟩ := isRegular_of_read? Grammar.agrees_tables read
  refine everywhere_iff.mpr ⟨?_, fun t among => ?_⟩
  · rw [fits, file]
    rfl
  · exact everywhere_mono (fun _ regular => (fitsGrammar_of_isRegular regular).2) (inside t among)

end Syntax

end JavaCallGraph.Java
