import JavaCallGraph.Proofs.Loop
import JavaCallGraph.Proofs.Subtypes

/-!
Supertypes by any number of steps, and their duality with subtypes.

The two closures read two tables that are filled side by side and are served by two different loops:
subtypes start from one type and are listed when they are taken from the queue, supertypes start from a
whole chain of superclasses and are listed when they are queued. They are nevertheless converse to
each other, since both list exactly what steps to direct supertypes connect.
-/

namespace JavaCallGraph

namespace Closure

variable {next : NodeId → List NodeId} {all : List NodeId}

/-- One round of `serve`: the queue and what is seen so far. -/
def serveOnce (next : NodeId → List NodeId) :
    List NodeId × List NodeId → Option (List NodeId × List NodeId)
  | ([], _) => none
  | (x :: queue, seen) => some (queue ++ fresh seen (next x), seen ++ fresh seen (next x))

/-- The queue runs dry within the steps that suffice for it and for all that is unmet. -/
theorem serve_ends (bounded : ∀ x, ∀ y ∈ next x, y ∈ all) {steps : Nat} {queue seen : List NodeId}
    (enough : queue.length + unmet all seen ≤ steps) :
    Loop.Ends (serveOnce next) (queue, seen) ([], serve next steps queue seen) := by
  induction steps generalizing queue seen with
  | zero =>
    have empty : queue = [] := List.eq_nil_of_length_eq_zero (by omega)
    subst empty
    exact .here rfl
  | succ steps ih =>
    cases queue with
    | nil => exact .here rfl
    | cons x queue =>
      refine .step rfl (ih ?_)
      have counted := unmet_append all (nodup_fresh seen (next x)) fun y new =>
        ⟨bounded x y (mem_fresh.mp new).1, (mem_fresh.mp new).2⟩
      rw [List.length_append]
      rw [List.length_cons] at enough
      omega

/-- One round of `drain`: an element that was met before is dropped. -/
def drainOnce (next : NodeId → List NodeId) :
    List NodeId × List NodeId → Option (List NodeId × List NodeId)
  | ([], _) => none
  | (x :: queue, seen) =>
    if seen.contains x then some (queue, seen) else some (queue ++ next x, seen ++ [x])

/-- However often elements are queued, the queue runs dry once all that the table holds has been
queued. -/
theorem drain_ends {table : Index NodeId NodeId} {steps : Nat} {queue seen : List NodeId}
    (enough : queue.length + unqueued table seen ≤ steps) :
    Loop.Ends (drainOnce table.get) (queue, seen) ([], drain table.get steps queue seen) := by
  induction steps generalizing queue seen with
  | zero =>
    obtain rfl : queue = [] := List.eq_nil_of_length_eq_zero (by omega)
    exact .here rfl
  | succ steps ih =>
    cases queue with
    | nil => exact .here rfl
    | cons x queue =>
      rw [List.length_cons] at enough
      rw [drain]
      by_cases met : seen.contains x
      · rw [if_pos met]
        refine .step ?_ (ih (by omega))
        rw [drainOnce, if_pos met]
      · rw [if_neg met]
        have queued := unqueued_append table (fun old => met (List.contains_iff_mem.mpr old))
        refine .step ?_ (ih ?_)
        · rw [drainOnce, if_neg met]
        · rw [List.length_append]
          omega

end Closure

namespace Hierarchy

variable {p : Program} {h : Hierarchy} {t s : NodeId}

/-! ### Superclass chains -/

/-- One round of `superclassChain`: the next type and the types listed so far. -/
def climbOnce (h : Hierarchy) : Option NodeId × List NodeId → Option (Option NodeId × List NodeId)
  | (none, _) => none
  | (some t, seen) => if seen.contains t then none else some (h.parentOf? t, seen ++ [t])

theorem superclassChain_ends {all : List NodeId}
    (bounded : ∀ t s, h.parentOf? t = some s → s ∈ all) {bound : Nat} {seen : List NodeId}
    {start : Option NodeId} (listed : ∀ t, start = some t → t ∈ all)
    (enough : Closure.unmet all seen < bound) :
    ∃ last, Loop.Ends h.climbOnce (start, seen) (last, h.superclassChain bound seen start) := by
  induction bound generalizing seen start with
  | zero => omega
  | succ bound ih =>
    cases start with
    | none => exact ⟨none, .here rfl⟩
    | some t =>
      rw [superclassChain]
      by_cases met : seen.contains t
      · rw [if_pos met]
        refine ⟨some t, .here ?_⟩
        rw [climbOnce, if_pos met]
      · rw [if_neg met]
        have counted := Closure.unmet_append all (List.nodup_singleton t) (by
          intro x new
          rw [List.mem_singleton.mp new]
          exact ⟨listed t rfl, fun old => met (List.contains_iff_mem.mpr old)⟩)
        rw [List.length_singleton] at counted
        have fewer : Closure.unmet all (seen ++ [t]) < bound := by omega
        obtain ⟨last, rest⟩ := ih (fun s above => bounded t s above) fewer
        refine ⟨last, .step ?_ rest⟩
        rw [climbOnce, if_neg met]

theorem superclassChain_nodup {bound : Nat} {seen : List NodeId} {start : Option NodeId}
    (nodup : seen.Nodup) : (h.superclassChain bound seen start).Nodup := by
  induction bound generalizing seen start with
  | zero => exact nodup
  | succ bound ih =>
    cases start with
    | none => exact nodup
    | some t =>
      rw [superclassChain]
      by_cases met : seen.contains t
      · rw [if_pos met]
        exact nodup
      · rw [if_neg met]
        apply ih
        apply nodup.append (List.nodup_singleton t)
        intro x old new
        rw [List.mem_singleton.mp new] at old
        exact met (List.contains_iff_mem.mpr old)

theorem prefix_superclassChain (bound : Nat) (seen : List NodeId) (start : Option NodeId) :
    seen <+: h.superclassChain bound seen start := by
  induction bound generalizing seen start with
  | zero => exact List.prefix_rfl
  | succ bound ih =>
    cases start with
    | none => exact List.prefix_rfl
    | some t =>
      rw [superclassChain]
      by_cases met : seen.contains t
      · rw [if_pos met]
      · rw [if_neg met]
        exact (List.prefix_append seen [t]).trans (ih _ _)

theorem inherits_of_mem_superclassChain {x : NodeId} {bound : Nat} {seen : List NodeId}
    {start : Option NodeId} (old : ∀ y ∈ seen, h.Inherits t y)
    (first : ∀ y, start = some y → h.Inherits t y)
    (member : x ∈ h.superclassChain bound seen start) : h.Inherits t x := by
  induction bound generalizing seen start with
  | zero => exact old x member
  | succ bound ih =>
    cases start with
    | none => exact old x member
    | some u =>
      rw [superclassChain] at member
      by_cases met : seen.contains u
      · rw [if_pos met] at member
        exact old x member
      · rw [if_neg met] at member
        apply ih ?_ ?_ member
        · intro y listed
          rcases List.mem_append.mp listed with earlier | last
          · exact old y earlier
          · rw [List.mem_singleton.mp last]
            exact first u rfl
        · exact fun y above => (first u rfl).tail above

/-- The chain that an ancestry starts with: a type and its superclasses. -/
def superclasses (h : Hierarchy) (t : NodeId) : List NodeId :=
  h.superclassChain (h.types.length + 2) [] (some t)

theorem singleton_prefix_superclasses (h : Hierarchy) (t : NodeId) : [t] <+: h.superclasses t := by
  rw [superclasses, superclassChain, if_neg (by simp)]
  exact prefix_superclassChain _ [t] _

theorem superclasses_ends (p : Program) (t : NodeId) :
    ∃ last, Loop.Ends (build p).climbOnce (some t, []) (last, (build p).superclasses t) := by
  have bounded : ∀ u v, (build p).parentOf? u = some v → v ∈ t :: (build p).types :=
    fun u v above => List.mem_cons_of_mem t (mem_types_of_supertype (extends_of_parentOf? above)).2
  apply superclassChain_ends bounded
  · rintro u ⟨⟩
    exact List.mem_cons_self
  · exact Nat.lt_succ_of_le (Closure.unmet_le _ _)

/-! ### Ancestries -/

theorem ancestry_eq (h : Hierarchy) (t : NodeId) :
    h.ancestry t = Closure.serve h.supertypesOf
      ((h.superclasses t).length + h.types.length + 1) (h.superclasses t) (h.superclasses t) := rfl

theorem supertypesOf_subset (p : Program) :
    ∀ t, ∀ s ∈ (build p).supertypesOf t, s ∈ (build p).types :=
  fun _ _ step => (mem_types_of_supertype step).2

theorem mem_ancestry : s ∈ (build p).ancestry t ↔ (build p).Below t s := by
  rw [ancestry_eq, Closure.mem_serve (supertypesOf_subset p) (by omega)]
  constructor
  · rintro ⟨x, listed, path⟩
    have inherits : (build p).Inherits t x := by
      apply inherits_of_mem_superclassChain _ _ listed
      · exact fun y member => absurd member List.not_mem_nil
      · rintro y ⟨⟩
        exact .refl
    exact inherits.below.trans path
  · intro below
    exact ⟨t, (singleton_prefix_superclasses _ t).subset (by simp), below⟩

theorem ancestry_nodup (h : Hierarchy) (t : NodeId) : (h.ancestry t).Nodup :=
  Closure.nodup_serve (superclassChain_nodup List.nodup_nil)

theorem head?_ancestry (h : Hierarchy) (t : NodeId) : (h.ancestry t).head? = some t := by
  obtain ⟨rest, listed⟩ : [t] <+: h.ancestry t :=
    (singleton_prefix_superclasses h t).trans (Closure.prefix_serve _ _ _)
  rw [← listed]
  rfl

theorem head?_subclassesOf (h : Hierarchy) (t : NodeId) : (h.subclassesOf t).head? = some t := by
  obtain ⟨rest, listed⟩ := h.singleton_prefix_subclassesOf t
  rw [← listed]
  rfl

/-! ### Direct supertypes as declared -/

/-- A type below the units names another one in its clauses. -/
def Declares (p : Program) (t s : NodeId) : Prop :=
  t ∈ p.allUnder p.units ∧ s ≠ t ∧
    ∃ name ∈ declaredSupertypes p t, (build p).resolveTypeName? t name = some s

theorem isType_of_mem_declaredSupertypes {name : String} (named : name ∈ declaredSupertypes p t) :
    p.isType t := by
  unfold declaredSupertypes at named
  unfold Program.isType
  cases read : p.typeDecl? t with
  | none => simp [read] at named
  | some d => rfl

theorem extends_iff : (build p).Extends t s ↔ Declares p t s := by
  rw [Extends, mem_supertypesOf, supertypePairs, List.mem_flatMap]
  constructor
  · rintro ⟨t', listed, entry⟩
    obtain ⟨name, named, entry⟩ := List.mem_filterMap.mp entry
    cases chosen : choose p t' ((build p).typesByName.get (TypeName.simple name)) with
    | none => simp [chosen] at entry
    | some u =>
      rw [chosen] at entry
      by_cases same : u = t'
      · simp [same] at entry
      · simp only [same, if_false, Option.some.injEq, Prod.mk.injEq] at entry
        obtain ⟨rfl, rfl⟩ := entry
        exact ⟨(List.mem_filter.mp listed).1, same, name, named, chosen⟩
  · rintro ⟨listed, other, name, named, chosen⟩
    refine ⟨t, ?_, ?_⟩
    · exact List.mem_filter.mpr ⟨listed, isType_of_mem_declaredSupertypes named⟩
    · apply List.mem_filterMap.mpr
      refine ⟨name, named, ?_⟩
      have chosen : choose p t ((build p).typesByName.get (TypeName.simple name)) = some s := chosen
      simp [chosen, other]

theorem below_iff : (build p).Below t s ↔ Relation.ReflTransGen (Declares p) t s := by
  have same : (build p).Extends = Declares p := by
    funext a b
    exact propext extends_iff
  rw [Below, same]

/-! ### Duality -/

/-- Subtypes and supertypes are converse to each other, whatever the clauses say: both list what a
path of declared supertypes connects, each type once and the given one first, and their loops come
to an end by themselves. -/
theorem subclassesOf_dual_ancestry (p : Program) (s t : NodeId) :
    (t ∈ (build p).subclassesOf s ↔ s ∈ (build p).ancestry t) ∧
    (t ∈ (build p).subclassesOf s ↔ Relation.ReflTransGen (Declares p) t s) ∧
    ((build p).subclassesOf s).Nodup ∧ ((build p).subclassesOf s).head? = some s ∧
    ((build p).ancestry t).Nodup ∧ ((build p).ancestry t).head? = some t ∧
    Loop.Ends (Closure.drainOnce (build p).subtypes.get) ([s], []) ([], (build p).subclassesOf s) ∧
    ∃ last chain, Loop.Ends (build p).climbOnce (some t, []) (last, chain) ∧
      Loop.Ends (Closure.serveOnce (build p).supertypesOf) (chain, chain)
        ([], (build p).ancestry t) := by
  obtain ⟨last, climbed⟩ := superclasses_ends p t
  refine ⟨?_, ?_, ?_, head?_subclassesOf _ s, ancestry_nodup _ t, head?_ancestry _ t, ?_,
    last, (build p).superclasses t, climbed, ?_⟩
  · rw [mem_subclassesOf, mem_ancestry]
  · rw [mem_subclassesOf, below_iff]
  · exact subclassesOf_nodup p s
  · apply Closure.drain_ends
    rw [Closure.unqueued_nil, List.length_singleton]
    omega
  · rw [ancestry_eq]
    apply Closure.serve_ends (supertypesOf_subset p)
    have := Closure.unmet_le (build p).types ((build p).superclasses t)
    omega

end Hierarchy

end JavaCallGraph
