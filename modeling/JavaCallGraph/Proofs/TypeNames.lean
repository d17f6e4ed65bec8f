import JavaCallGraph.Proofs.Program.Listing
import JavaCallGraph.Proofs.Supertypes

/-!
What a type name means.

A name stands for one of the types with its simple name. They are listed in the order of the
program and put to four tests in turn; the first type that passes the first test that any of them
passes is the one that is meant. So names with the same last part mean the same at one place, which
keeps interfaces apart from superclasses, and of the types around a place the one written first is
meant, which need not be the innermost.
-/

namespace JavaCallGraph

/-! ### Types of one name -/

namespace Program

variable {p : Program}

/-- Whether a node declares a type of a given name. -/
def declaresType (p : Program) (name : String) (id : NodeId) : Bool :=
  (p.typeDecl? id).any (·.name == name)

theorem simpleName?_of_declaresType {name : String} {t : NodeId}
    (declares : p.declaresType name t) :
    p.simpleName? t = some name := by
  obtain ⟨decl, read, named⟩ := (Option.any_eq_true _ _).mp declares
  obtain ⟨k, kind, isType⟩ := Option.bind_eq_some_iff.mp read
  rw [simpleName?, kind]
  cases k with
  | type d =>
    cases isType
    exact congrArg some (beq_iff_eq.mp named)
  | _ => cases isType

/-- The package of the unit that a node lies in. -/
def package? (p : Program) (id : NodeId) : Option String := (p.unit? id).bind (·.package)

end Program

namespace Hierarchy

variable {p : Program} {t s x : NodeId} {name : String}

theorem typesNamed_eq (p : Program) (name : String) :
    (build p).typesNamed name =
      (p.allUnder p.units).filter (p.declaresType (TypeName.simple name)) := by
  have listed : ∀ all : List NodeId,
      ((namedTypes p (all.filter p.isType)).filter (·.1 = TypeName.simple name)).map (·.2) =
        all.filter (p.declaresType (TypeName.simple name)) := by
    intro all
    induction all with
    | nil => rfl
    | cons id rest ih =>
      cases read : p.typeDecl? id with
      | none => simpa [Program.isType, Program.declaresType, read] using ih
      | some d =>
        by_cases named : d.name = TypeName.simple name <;>
          simpa [Program.isType, Program.declaresType, namedTypes, read, named] using ih
  rw [typesNamed, ← listed]
  exact Index.get_ofPairs _ _

theorem simpleName?_of_resolved (resolved : (build p).resolveTypeName? x name = some t) :
    p.simpleName? t = some (TypeName.simple name) := by
  have member := mem_of_choose resolved
  rw [typesNamed_eq, List.mem_filter] at member
  exact Program.simpleName?_of_declaresType member.2

/-- Only the last part of a name counts. -/
theorem resolveTypeName?_congr {h : Hierarchy} {other : String}
    (same : TypeName.simple name = TypeName.simple other) (x : NodeId) :
    h.resolveTypeName? x name = h.resolveTypeName? x other := by
  rw [resolveTypeName?, resolveTypeName?, typesNamed, typesNamed, same]

def nested (p : Program) (context c : NodeId) : Bool :=
  (p.parent? c).any fun q => (p.lineage context).contains q || (p.lineage context).contains c

def sameUnit (p : Program) (context c : NodeId) : Bool := p.unitOf? c == p.unitOf? context

def samePackage (p : Program) (context c : NodeId) : Bool := p.package? c == p.package? context

/-- The tests that the types of one name are put to in turn. -/
def preferences (p : Program) (context : NodeId) : List (NodeId → Bool) :=
  [nested p context, sameUnit p context, samePackage p context, fun _ => true]

/-- The type that is chosen is the first to pass the first test that any of them passes. All pass
the last one, so a single type is no exception. -/
theorem choose_eq (p : Program) (context : NodeId) (candidates : List NodeId) :
    choose p context candidates = (preferences p context).findSome? (candidates.find? ·) := by
  have first : ∀ test rest, (test :: rest).findSome? (candidates.find? ·) =
      (candidates.find? test <|> rest.findSome? (candidates.find? ·)) := by
    intro test rest
    rw [List.findSome?_cons]
    cases candidates.find? test <;> rfl
  have last : candidates.find? (fun _ => true) = candidates.head? := by
    cases candidates <;> rfl
  simp only [preferences, first, last, List.findSome?_nil]
  unfold choose
  split
  · rfl
  · next only =>
    simp only [List.find?_singleton, List.head?_cons]
    grind
  · simp only [Option.orElse_eq_orElse, Option.orElse_eq_or, Option.or_none]
    rfl

/-! ### Superclasses -/

end Hierarchy

namespace Program

variable {p : Program}

def superclassName? (p : Program) (t : NodeId) : Option String :=
  (p.typeDecl? t).bind (·.superclass)

def interfaceNames (p : Program) (t : NodeId) : List String :=
  ((p.typeDecl? t).map (·.interfaces)).getD []

end Program

namespace Hierarchy

variable {p : Program} {t s x : NodeId} {name : String}

theorem declaredSupertypes_eq (p : Program) (t : NodeId) :
    declaredSupertypes p t = (p.superclassName? t).toList ++ p.interfaceNames t := by
  rw [declaredSupertypes, Program.superclassName?, Program.interfaceNames]
  cases p.typeDecl? t <;> rfl

/-- The type that a name in the clauses of a type means, unless it is the type itself. -/
def named? (p : Program) (t : NodeId) (name : String) : Option NodeId :=
  ((build p).resolveTypeName? t name).filter (· ≠ t)

theorem named?_eq_some :
    named? p t name = some s ↔ (build p).resolveTypeName? t name = some s ∧ s ≠ t := by
  simp [named?, Option.filter_eq_some_iff]

theorem supertypePairs_eq (p : Program) (types : List NodeId) :
    supertypePairs p (build p).typesByName types =
      types.flatMap fun u => ((declaredSupertypes p u).filterMap (named? p u)).map (u, ·) := by
  rw [supertypePairs]
  congr 1
  funext u
  rw [List.map_filterMap]
  congr 1
  funext name
  have chosen : choose p u ((build p).typesByName.get (TypeName.simple name)) =
      (build p).resolveTypeName? u name := rfl
  rw [chosen, named?]
  cases (build p).resolveTypeName? u name with
  | none => rfl
  | some s => by_cases same : s = u <;> simp [same]

/-- The direct supertypes are what the names in the clauses mean, in their order. -/
theorem supertypesOf_eq (forest : p.Forest) (t : NodeId) :
    (build p).supertypesOf t = (declaredSupertypes p t).filterMap (named? p t) := by
  have pairs : (build p).supertypes =
      Index.ofPairs (supertypePairs p (build p).typesByName (build p).types) := rfl
  rw [supertypesOf, pairs, Index.get_ofPairs, supertypePairs_eq]
  apply Program.entries_of_owner
  · exact forest.allUnder_units_nodup.filter _
  · intro unlisted
    suffices declaredSupertypes p t = [] by rw [this, List.filterMap_nil]
    apply List.eq_nil_iff_forall_not_mem.mpr
    intro name declared
    have isType := isType_of_mem_declaredSupertypes declared
    obtain ⟨d, kind⟩ := Program.isType_iff.mp isType
    have present := forest.mem_allUnder_units.mpr (Program.has_of_kind? kind)
    exact unlisted (List.mem_filter.mpr ⟨present, isType⟩)

/-- An interface that has the name of the superclass is what the superclass is. -/
theorem named?_of_simpleName? {superclass : String} (named : named? p t name = some s)
    (same : p.simpleName? s = some (TypeName.simple superclass)) :
    named? p t superclass = some s := by
  have resolved := (named?_eq_some.mp named).1
  rw [simpleName?_of_resolved resolved, Option.some.injEq] at same
  rw [named?, ← resolveTypeName?_congr same]
  exact named

theorem parentOf?_eq (forest : p.Forest) (t : NodeId) :
    (build p).parentOf? t = (p.superclassName? t).bind (named? p t) := by
  have program : (build p).program = p := rfl
  rw [parentOf?, program, supertypesOf_eq forest, declaredSupertypes_eq, Program.superclassName?]
  cases read : p.typeDecl? t with
  | none => rfl
  | some d =>
    simp only [Option.bind_eq_bind, Option.bind_some]
    cases declared : d.superclass with
    | none => rfl
    | some superclass =>
      simp only [Option.bind_some, Option.toList_some, List.singleton_append, List.filterMap_cons]
      cases meant : named? p t superclass with
      | some s =>
        have name := simpleName?_of_resolved (named?_eq_some.mp meant).1
        simp [name]
      | none =>
        apply Option.bind_eq_none_iff.mpr
        intro s first
        obtain ⟨interface, -, named⟩ := List.mem_filterMap.mp (List.mem_of_head? first)
        apply if_neg
        intro same
        rw [named?_of_simpleName? named same] at meant
        cases meant

/-- The superclass of a type is what its `extends` clause means, if that is another type. Without
one there is none, whatever the type implements; and what an `implements` clause means is the
superclass only if the `extends` clause has the same last part. -/
theorem parentOf?_is_superclass (grown : p.Grown) (t : NodeId) :
    (∀ s, (build p).parentOf? t = some s ↔
      ∃ name, p.superclassName? t = some name ∧
        (build p).resolveTypeName? t name = some s ∧ s ≠ t) ∧
    ((∀ name, p.superclassName? t = some name →
      (build p).resolveTypeName? t name = none ∨ (build p).resolveTypeName? t name = some t) →
        (build p).parentOf? t = none) ∧
    ∀ interface ∈ p.interfaceNames t, ∀ s, (build p).resolveTypeName? t interface = some s →
      (build p).parentOf? t = some s →
        ∃ name, p.superclassName? t = some name ∧
          TypeName.simple name = TypeName.simple interface := by
  have superclass : ∀ s, (build p).parentOf? t = some s ↔
      ∃ name, p.superclassName? t = some name ∧
        (build p).resolveTypeName? t name = some s ∧ s ≠ t := by
    intro s
    rw [parentOf?_eq grown.forest, Option.bind_eq_some_iff]
    simp only [named?_eq_some]
  refine ⟨superclass, ?_, ?_⟩
  · intro absent
    apply Option.eq_none_iff_forall_ne_some.mpr
    intro s found
    obtain ⟨name, declared, resolved, other⟩ := (superclass s).mp found
    rcases absent name declared with none | itself
    · rw [none] at resolved
      cases resolved
    · rw [itself] at resolved
      cases resolved
      exact other rfl
  · intro interface _ s implemented found
    obtain ⟨name, declared, resolved, -⟩ := (superclass s).mp found
    refine ⟨name, declared, ?_⟩
    have names :=
      (simpleName?_of_resolved resolved).symm.trans (simpleName?_of_resolved implemented)
    exact Option.some.inj names

/-- An interface `I` with four classes that implement it: `A` extends a type that is not declared,
`B` itself, `C` the class `A`, and `D` a type that is written like the interface. -/
def clauses : Program :=
  Program.empty
    |>.addUnit { path := "A.java" }
    |>.append ⟨0⟩ (.type { kind := .interfaceType, name := "I" }) .unknown
    |>.append ⟨0⟩
      (.type { kind := .classType, name := "A", superclass := some "Z", interfaces := ["I"] })
      .unknown
    |>.append ⟨0⟩
      (.type { kind := .classType, name := "B", superclass := some "B", interfaces := ["I"] })
      .unknown
    |>.append ⟨0⟩
      (.type { kind := .classType, name := "C", superclass := some "A", interfaces := ["I"] })
      .unknown
    |>.append ⟨0⟩
      (.type { kind := .classType, name := "D", superclass := some "p.I", interfaces := ["I"] })
      .unknown

theorem clauses_grown : clauses.Grown := by
  unfold clauses
  repeat' constructor

/-- The interface is returned for `D` alone, where the superclass means it. -/
theorem parentOf?_is_superclass_clauses :
    (build clauses).supertypesOf ⟨2⟩ = [⟨1⟩] ∧ (build clauses).parentOf? ⟨2⟩ = none ∧
      (build clauses).supertypesOf ⟨3⟩ = [⟨1⟩] ∧ (build clauses).parentOf? ⟨3⟩ = none ∧
      (build clauses).parentOf? ⟨4⟩ = some ⟨2⟩ ∧ (build clauses).parentOf? ⟨5⟩ = some ⟨1⟩ := by
  have undeclared : (build clauses).resolveTypeName? ⟨2⟩ "Z" = none := rfl
  have itself : (build clauses).resolveTypeName? ⟨3⟩ "B" = some ⟨3⟩ := rfl
  have other : (build clauses).resolveTypeName? ⟨4⟩ "A" = some ⟨2⟩ := rfl
  have written : (build clauses).resolveTypeName? ⟨5⟩ "p.I" = some ⟨1⟩ := rfl
  refine ⟨rfl, ?_, rfl, ?_, ?_, ?_⟩
  · apply (parentOf?_is_superclass clauses_grown ⟨2⟩).2.1
    rintro name ⟨⟩
    exact .inl undeclared
  · apply (parentOf?_is_superclass clauses_grown ⟨3⟩).2.1
    rintro name ⟨⟩
    exact .inr itself
  · exact ((parentOf?_is_superclass clauses_grown ⟨4⟩).1 ⟨2⟩).mpr ⟨"A", rfl, other, by decide⟩
  · exact ((parentOf?_is_superclass clauses_grown ⟨5⟩).1 ⟨1⟩).mpr ⟨"p.I", rfl, written, by decide⟩

end Hierarchy

/-! ### Types around a place -/

namespace Program

variable {p : Program} {x c d q : NodeId}

/-- A declaration stands directly in a node or in one around it. -/
def InScope (p : Program) (x c : NodeId) : Prop := ∃ q ∈ p.lineage x, p.parent? c = some q

/-- A declaration stands further inside than another. -/
def Inner (p : Program) (c d : NodeId) : Prop :=
  ∃ q r, p.parent? c = some q ∧ p.parent? d = some r ∧ r ∈ p.ancestors q

/-- A declaration encloses a node, or is older than the sibling that does. -/
def Precedes (p : Program) (d x : NodeId) : Prop :=
  ∃ b ∈ p.lineage x, p.parent? b = p.parent? d ∧ d.index ≤ b.index

namespace Forest

/-- Of two declarations in scope, an outer one is listed first only if it encloses the place or
comes before what does. -/
theorem precedes_of_listed (forest : p.Forest) (inScope : p.InScope x c) (inner : p.Inner c d)
    (listed : List.Sublist [d, c] (p.allUnder p.units)) : p.Precedes d x := by
  obtain ⟨q, line, above⟩ := inScope
  obtain ⟨q', r, above', outer, higher⟩ := inner
  obtain rfl : q = q' := Option.some.inj (above.symm.trans above')
  -- the sibling of the outer declaration on the way to the inner one
  obtain ⟨b, child, way⟩ := forest.way_down higher
  have around : b ∈ p.lineage q := List.mem_cons.mpr (way.imp_left Eq.symm)
  have sibling : p.parent? b = some r := forest.mem_children.mp child
  refine ⟨b, forest.lineage_trans around line, sibling.trans outer.symm, ?_⟩
  by_contra younger
  have below : c ∈ p.descendants b :=
    forest.mem_descendants_iff.mpr (forest.lineage_trans around (forest.parent_mem_lineage above))
  have reversed := forest.listed_before_sibling sibling outer (Nat.lt_of_not_le younger) below
  exact not_sublist_swap forest.allUnder_units_nodup listed reversed

end Forest

theorem Inner.ne (forest : p.Forest) (inner : p.Inner c d) : c ≠ d := by
  obtain ⟨q, r, above, above', higher⟩ := inner
  rintro rfl
  obtain rfl : q = r := Option.some.inj (above.symm.trans above')
  exact Nat.lt_irrefl _ (forest.lt_of_mem_ancestors higher)

end Program

namespace Hierarchy

variable {p : Program} {x c : NodeId} {name : String}

theorem nested_iff (forest : p.Forest) : nested p x c ↔ p.InScope x c := by
  simp only [nested, Option.any_eq_true, Bool.or_eq_true, List.contains_iff_mem]
  constructor
  · rintro ⟨q, above, line | line⟩
    · exact ⟨q, line, above⟩
    · exact ⟨q, forest.lineage_trans (forest.parent_mem_lineage above) line, above⟩
  · rintro ⟨q, line, above⟩
    exact ⟨q, above, .inl line⟩

/-- Among the types of a name that stand in scope, the first one listed is meant. -/
theorem resolveTypeName?_inScope (forest : p.Forest) (declared : c ∈ (build p).typesNamed name)
    (inScope : p.InScope x c) :
    ∃ r before after, (build p).resolveTypeName? x name = some r ∧
      (build p).typesNamed name = before ++ r :: after ∧ p.InScope x r ∧
        ∀ d ∈ before, ¬p.InScope x d := by
  have resolved : (build p).resolveTypeName? x name =
      (preferences p x).findSome? ((build p).typesNamed name |>.find? ·) := choose_eq p x _
  cases first : ((build p).typesNamed name).find? (nested p x) with
  | none => exact absurd ((nested_iff forest).mpr inScope) (List.find?_eq_none.mp first c declared)
  | some r =>
    obtain ⟨passes, before, after, listed, rejected⟩ := List.find?_eq_some_iff_append.mp first
    refine ⟨r, before, after, ?_, listed, (nested_iff forest).mp passes, ?_⟩
    · rw [resolved, preferences, List.findSome?_cons, first]
    · intro d early visible
      have fails := rejected d early
      rw [(nested_iff forest).mpr visible] at fails
      cases fails

/-- Where types of a name stand in scope, the name means the first of them in the order of the
program. It passes over one that stands further inside only if it encloses the place, or comes
before its sibling that does. -/
theorem inner_type_loses_only_later (grown : p.Grown) (declared : c ∈ (build p).typesNamed name)
    (inScope : p.InScope x c) :
    ∃ r before after, (build p).resolveTypeName? x name = some r ∧
      (build p).typesNamed name = before ++ r :: after ∧ p.InScope x r ∧
        (∀ d ∈ before, ¬p.InScope x d) ∧
          ∀ d ∈ (build p).typesNamed name, p.InScope x d → p.Inner d r → p.Precedes r x := by
  have forest := grown.forest
  obtain ⟨r, before, after, resolved, listed, visible, first⟩ :=
    resolveTypeName?_inScope forest declared inScope
  refine ⟨r, before, after, resolved, listed, visible, first, ?_⟩
  intro d named visible' inner
  have later : d ∈ after := by
    rw [listed] at named
    rcases List.mem_append.mp named with early | late
    · exact absurd visible' (first d early)
    · exact (List.mem_cons.mp late).resolve_left (inner.ne forest)
  have order : List.Sublist [r, d] ((build p).typesNamed name) := by
    rw [listed]
    exact ((List.singleton_sublist.mpr later).cons_cons r).trans (List.sublist_append_right _ _)
  apply forest.precedes_of_listed visible' inner
  rw [typesNamed_eq] at order
  exact order.trans List.filter_sublist

/-- A class `Node`, and a class `A` with a class `Node` inside. -/
def outerFirst : Program :=
  Program.empty
    |>.addUnit { path := "A.java" }
    |>.append ⟨0⟩ (.type { kind := .classType, name := "Node" }) .unknown
    |>.append ⟨0⟩ (.type { kind := .classType, name := "A" }) .unknown
    |>.append ⟨2⟩ (.type { kind := .classType, name := "Node" }) .unknown

/-- The same types, where the outer `Node` comes last. -/
def innerFirst : Program :=
  Program.empty
    |>.addUnit { path := "A.java" }
    |>.append ⟨0⟩ (.type { kind := .classType, name := "A" }) .unknown
    |>.append ⟨1⟩ (.type { kind := .classType, name := "Node" }) .unknown
    |>.append ⟨0⟩ (.type { kind := .classType, name := "Node" }) .unknown

theorem outerFirst_grown : outerFirst.Grown := by
  unfold outerFirst
  repeat' constructor

theorem outerFirst_inner :
    ⟨3⟩ ∈ (build outerFirst).typesNamed "Node" ∧ outerFirst.InScope ⟨2⟩ ⟨3⟩ ∧
      outerFirst.Inner ⟨3⟩ ⟨1⟩ := by
  have named : (build outerFirst).typesNamed "Node" = [⟨1⟩, ⟨3⟩] := rfl
  exact ⟨by simp [named], ⟨⟨2⟩, by decide, rfl⟩, ⟨2⟩, ⟨0⟩, rfl, rfl, by decide⟩

/-- In `A` the name means the outer `Node` if that is written first, although `A` has its own. -/
theorem inner_type_passed_over :
    ⟨3⟩ ∈ (build outerFirst).typesNamed "Node" ∧ outerFirst.InScope ⟨2⟩ ⟨3⟩ ∧
      outerFirst.Inner ⟨3⟩ ⟨1⟩ ∧ (build outerFirst).resolveTypeName? ⟨2⟩ "Node" = some ⟨1⟩ ∧
      (build innerFirst).resolveTypeName? ⟨1⟩ "Node" = some ⟨2⟩ :=
  ⟨outerFirst_inner.1, outerFirst_inner.2.1, outerFirst_inner.2.2, rfl, rfl⟩

/-- The outer `Node` precedes `A`. -/
theorem inner_type_loses_only_later_outerFirst :
    outerFirst.Inner ⟨3⟩ ⟨1⟩ ∧ (build outerFirst).resolveTypeName? ⟨2⟩ "Node" = some ⟨1⟩ ∧
      outerFirst.InScope ⟨2⟩ ⟨1⟩ ∧ outerFirst.Precedes ⟨1⟩ ⟨2⟩ := by
  obtain ⟨declared, inScope, inner⟩ := outerFirst_inner
  obtain ⟨r, before, after, resolved, -, visible, -, passed⟩ :=
    inner_type_loses_only_later outerFirst_grown declared inScope
  obtain rfl : r = ⟨1⟩ := Option.some.inj resolved.symm
  exact ⟨inner, resolved, visible, passed ⟨3⟩ declared inScope inner⟩

end Hierarchy

end JavaCallGraph
