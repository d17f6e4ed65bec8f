import JavaCallGraph.Proofs.Hierarchy
import Mathlib.Data.Finset.Card
import Mathlib.Data.List.Chain
import Mathlib.Logic.Relation

/-!
Subtypes and superclasses by any number of steps.

The closures of a hierarchy are worklists with a bound on their steps. The bound never cuts one
short: a loop that lists elements when they are queued queues each once, and one that lists them when
they are taken queues no more than its table holds. Both loops give the same list. So the subtypes
listed for a type are those from which steps to direct supertypes lead to it, and a superclass chain
ends only where the next superclass is missing or was met before.
-/

namespace JavaCallGraph

/-! ### Closures -/

namespace Closure

variable {next : NodeId → List NodeId} {all : List NodeId}

/-- How many elements are still to be met. -/
def unmet (all seen : List NodeId) : Nat := (all.toFinset \ seen.toFinset).card

theorem unmet_le (all seen : List NodeId) : unmet all seen ≤ all.length :=
  (Finset.card_le_card Finset.sdiff_subset).trans (List.toFinset_card_le all)

theorem unmet_append (all : List NodeId) {seen new : List NodeId} (nodup : new.Nodup)
    (unseen : ∀ x ∈ new, x ∈ all ∧ x ∉ seen) :
    unmet all (seen ++ new) + new.length = unmet all seen := by
  have inside : new.toFinset ⊆ all.toFinset \ seen.toFinset := by
    intro x member
    simpa using unseen x (List.mem_toFinset.mp member)
  have left : all.toFinset \ (seen ++ new).toFinset =
      (all.toFinset \ seen.toFinset) \ new.toFinset := by
    rw [List.toFinset_append, sdiff_sdiff_left, Finset.sup_eq_union]
  rw [unmet, unmet, left, ← List.toFinset_card_of_nodup nodup]
  exact Finset.card_sdiff_add_card_eq_card inside

theorem prefix_serve (steps : Nat) (queue seen : List NodeId) :
    seen <+: serve next steps queue seen := by
  induction steps generalizing queue seen with
  | zero => exact List.prefix_rfl
  | succ steps ih =>
    cases queue with
    | nil => exact List.prefix_rfl
    | cons x queue => exact (List.prefix_append seen _).trans (ih _ _)

theorem nodup_serve {steps : Nat} {queue seen : List NodeId} (nodup : seen.Nodup) :
    (serve next steps queue seen).Nodup := by
  induction steps generalizing queue seen with
  | zero => exact nodup
  | succ steps ih =>
    cases queue with
    | nil => exact nodup
    | cons x queue =>
      apply ih
      apply nodup.append (nodup_fresh seen (next x))
      intro y old new
      exact (mem_fresh.mp new).2 old

theorem exists_of_mem_serve {steps : Nat} {queue seen : List NodeId}
    (queued : ∀ x ∈ queue, x ∈ seen) {y : NodeId} (member : y ∈ serve next steps queue seen) :
    ∃ x ∈ seen, Relation.ReflTransGen (fun a b => b ∈ next a) x y := by
  induction steps generalizing queue seen with
  | zero => exact ⟨y, member, .refl⟩
  | succ steps ih =>
    cases queue with
    | nil => exact ⟨y, member, .refl⟩
    | cons z queue =>
      have requeued : ∀ x ∈ queue ++ fresh seen (next z), x ∈ seen ++ fresh seen (next z) := by
        intro x waiting
        rcases List.mem_append.mp waiting with old | new
        · exact List.mem_append_left _ (queued x (List.mem_cons_of_mem z old))
        · exact List.mem_append_right _ new
      obtain ⟨x, met, path⟩ := ih requeued member
      rcases List.mem_append.mp met with old | new
      · exact ⟨x, old, path⟩
      · exact ⟨z, queued z List.mem_cons_self, .head (mem_fresh.mp new).1 path⟩

/-- Once the steps suffice for the queue and all that is unmet, the closure is closed. -/
theorem serve_closed (bounded : ∀ x, ∀ y ∈ next x, y ∈ all) {steps : Nat}
    {queue seen : List NodeId} (enough : queue.length + unmet all seen ≤ steps)
    (pending : ∀ x ∈ seen, x ∈ queue ∨ ∀ y ∈ next x, y ∈ seen) :
    ∀ x ∈ serve next steps queue seen, ∀ y ∈ next x, y ∈ serve next steps queue seen := by
  induction steps generalizing queue seen with
  | zero =>
    have empty : queue = [] := List.eq_nil_of_length_eq_zero (by omega)
    subst empty
    exact fun x member => (pending x member).resolve_left List.not_mem_nil
  | succ steps ih =>
    cases queue with
    | nil => exact fun x member => (pending x member).resolve_left List.not_mem_nil
    | cons z queue =>
      apply ih
      · have counted := unmet_append all (nodup_fresh seen (next z)) fun x new =>
          ⟨bounded z x (mem_fresh.mp new).1, (mem_fresh.mp new).2⟩
        rw [List.length_append]
        rw [List.length_cons] at enough
        omega
      · intro x member
        rcases List.mem_append.mp member with old | new
        · rcases pending x old with waiting | served
          · rcases List.mem_cons.mp waiting with rfl | waiting
            -- the element just served: what it leads to was met before or is met now
            · right
              intro y led
              by_cases met : y ∈ seen
              · exact List.mem_append_left _ met
              · exact List.mem_append_right _ (mem_fresh.mpr ⟨led, met⟩)
            · exact .inl (List.mem_append_left _ waiting)
          · exact .inr fun y led => List.mem_append_left _ (served y led)
        · exact .inl (List.mem_append_right _ new)

theorem mem_serve (bounded : ∀ x, ∀ y ∈ next x, y ∈ all) {steps : Nat} {start : List NodeId}
    (enough : start.length + all.length ≤ steps) {y : NodeId} :
    y ∈ serve next steps start start ↔
      ∃ x ∈ start, Relation.ReflTransGen (fun a b => b ∈ next a) x y := by
  constructor
  · exact exists_of_mem_serve fun x member => member
  · rintro ⟨x, first, path⟩
    have unmet := unmet_le all start
    have closed : ∀ x ∈ serve next steps start start, ∀ y ∈ next x,
        y ∈ serve next steps start start :=
      serve_closed bounded (by omega) fun x member => .inl member
    induction path with
    | refl => exact mem_serve_of_seen first
    | tail _ led ih => exact closed _ ih _ led

/-! ### Elements that are listed when they are taken -/

theorem fresh_append (seen xs ys : List NodeId) :
    fresh seen (xs ++ ys) = fresh seen xs ++ fresh (seen ++ fresh seen xs) ys := by
  induction xs generalizing seen with
  | nil => simp [fresh]
  | cons x rest ih =>
    rw [List.cons_append, fresh, fresh]
    split
    · exact ih seen
    · rw [ih (seen ++ [x]), List.cons_append, List.append_assoc seen [x], List.singleton_append]

/-- How many values of a table are still to be queued: those of the keys that were not met. -/
def unqueued (table : Index NodeId NodeId) (seen : List NodeId) : Nat :=
  ((table.buckets.filter fun bucket => !seen.contains bucket.1).flatMap (·.2)).length

theorem unqueued_nil (table : Index NodeId NodeId) : unqueued table [] = table.size := by
  simp [unqueued, Index.size]

theorem unqueued_append (table : Index NodeId NodeId) {seen : List NodeId} {x : NodeId}
    (new : x ∉ seen) :
    unqueued table (seen ++ [x]) + (table.get x).length ≤ unqueued table seen := by
  obtain ⟨buckets⟩ := table
  induction buckets with
  | nil => exact Nat.le_refl 0
  | cons bucket rest ih =>
    obtain ⟨key, values⟩ := bucket
    simp only [unqueued, Index.get, Index.lookup] at ih ⊢
    by_cases same : key = x
    · -- the bucket of the element itself, which is counted no more
      subst same
      have fewer : ((rest.filter fun bucket => !(seen ++ [key]).contains bucket.1).flatMap
          (·.2)).length ≤ ((rest.filter fun bucket => !seen.contains bucket.1).flatMap
          (·.2)).length := by omega
      simp [new] at fewer ⊢
      omega
    · by_cases met : key ∈ seen
      · simpa [same, met] using ih
      · simp [same, met] at ih ⊢
        omega

/-- Listing elements when they are taken gives the list that listing them when queued gives. -/
theorem drain_eq_serve {table : Index NodeId NodeId} (bounded : ∀ x, ∀ y ∈ table.get x, y ∈ all)
    {steps steps' : Nat} {queue seen : List NodeId}
    (enough : queue.length + unqueued table seen ≤ steps)
    (enough' : (fresh seen queue).length + unmet all (seen ++ fresh seen queue) ≤ steps') :
    drain table.get steps queue seen =
      serve table.get steps' (fresh seen queue) (seen ++ fresh seen queue) := by
  have idle : ∀ (steps : Nat) (seen : List NodeId), serve table.get steps [] seen = seen := by
    intro steps seen
    cases steps <;> rfl
  induction steps generalizing steps' queue seen with
  | zero =>
    obtain rfl : queue = [] := List.eq_nil_of_length_eq_zero (by omega)
    rw [fresh, List.append_nil, idle, drain]
  | succ steps ih =>
    cases queue with
    | nil => rw [fresh, List.append_nil, idle, drain]
    | cons x queue =>
      rw [List.length_cons] at enough
      rw [fresh] at enough' ⊢
      rw [drain]
      by_cases met : seen.contains x
      · rw [if_pos met] at enough' ⊢
        rw [if_pos met]
        exact ih (by omega) enough'
      · rw [if_neg met] at enough' ⊢
        rw [if_neg met]
        have queued := unqueued_append table (fun old => met (List.contains_iff_mem.mpr old))
        have same : seen ++ x :: fresh (seen ++ [x]) queue =
            (seen ++ [x]) ++ fresh (seen ++ [x]) queue := by simp
        rw [same, List.length_cons] at enough'
        have counted := unmet_append all
          (nodup_fresh (seen ++ [x] ++ fresh (seen ++ [x]) queue) (table.get x)) fun y new =>
            ⟨bounded x y (mem_fresh.mp new).1, (mem_fresh.mp new).2⟩
        cases steps' with
        | zero => omega
        | succ steps' =>
          rw [serve, same, @ih steps', fresh_append, List.append_assoc (seen ++ [x])]
          · rw [List.length_append]
            omega
          · rw [fresh_append, List.length_append, ← List.append_assoc]
            omega

end Closure

namespace Hierarchy

variable {p : Program} {h : Hierarchy} {t s : NodeId}

/-! ### Steps to direct supertypes -/

def Extends (h : Hierarchy) (t s : NodeId) : Prop := s ∈ h.supertypesOf t

/-- Steps to direct supertypes lead from one type to another. -/
def Below (h : Hierarchy) : NodeId → NodeId → Prop := Relation.ReflTransGen h.Extends

/-- Steps to direct superclasses lead from one type to another. -/
def Inherits (h : Hierarchy) : NodeId → NodeId → Prop :=
  Relation.ReflTransGen fun t s => h.parentOf? t = some s

def Acyclic (h : Hierarchy) : Prop := ∀ t, ¬Relation.TransGen h.Extends t t

/-- Types that are all declared after their supertypes form no cycle. -/
theorem acyclic_of_lt (later : ∀ pair ∈ supertypePairs p (build p).typesByName (build p).types,
    pair.2.index < pair.1.index) : (build p).Acyclic := by
  have lt : ∀ {t s}, Relation.TransGen (build p).Extends t s → s.index < t.index := by
    intro t s path
    induction path with
    | single step => exact later _ (mem_supertypesOf.mp step)
    | tail _ step ih => exact (later _ (mem_supertypesOf.mp step)).trans ih
  exact fun t cycle => Nat.lt_irrefl _ (lt cycle)

theorem mem_subtypes : t ∈ (build p).subtypes.get s ↔ (build p).Extends t s := by
  have pairs : (build p).subtypes = Index.ofPairs
      ((supertypePairs p (build p).typesByName (build p).types).map Prod.swap) := rfl
  rw [Extends, mem_supertypesOf, pairs, Index.get_ofPairs]
  simp

theorem isType_of_below (below : (build p).Below t s) (isType : p.isType s) : p.isType t := by
  rcases Relation.ReflTransGen.cases_head below with rfl | ⟨u, step, -⟩
  · exact isType
  · exact (List.mem_filter.mp (mem_types_of_supertype step).1).2

theorem subtypes_subset (p : Program) : ∀ s, ∀ t ∈ (build p).subtypes.get s, t ∈ (build p).types :=
  fun _ _ step => (mem_types_of_supertype (mem_subtypes.mp step)).1

/-- Subtypes may be queued several times, but are listed as if each were queued once. -/
theorem subclassesOf_eq_serve (p : Program) (s : NodeId) :
    (build p).subclassesOf s =
      Closure.serve (build p).subtypes.get ((build p).types.length + 1) [s] [s] := by
  have unmet := Closure.unmet_le (build p).types [s]
  rw [subclassesOf, Closure.drain_eq_serve (subtypes_subset p)]
  · rfl
  · rw [Closure.unqueued_nil, List.length_singleton]
    omega
  · change 1 + Closure.unmet (build p).types [s] ≤ _
    omega

theorem mem_subclassesOf : t ∈ (build p).subclassesOf s ↔ (build p).Below t s := by
  rw [subclassesOf_eq_serve, Closure.mem_serve (subtypes_subset p) (by simp; omega), Below,
    ← Relation.reflTransGen_swap]
  simp [mem_subtypes, Function.swap_def]

theorem subclassesOf_nodup (p : Program) (s : NodeId) : ((build p).subclassesOf s).Nodup := by
  rw [subclassesOf_eq_serve]
  exact Closure.nodup_serve (List.nodup_singleton s)

/-- A type stands first among its subtypes and only there. -/
theorem mem_drop_subclassesOf :
    t ∈ ((build p).subclassesOf s).drop 1 ↔ (build p).Below t s ∧ t ≠ s := by
  obtain ⟨rest, listed⟩ := (build p).singleton_prefix_subclassesOf s
  have nodup := subclassesOf_nodup p s
  rw [← listed, List.singleton_append, List.nodup_cons] at nodup
  rw [← mem_subclassesOf, ← listed]
  simp only [List.singleton_append, List.drop_succ_cons, List.drop_zero, List.mem_cons]
  constructor
  · exact fun member => ⟨.inr member, fun same => nodup.1 (same ▸ member)⟩
  · exact fun ⟨member, other⟩ => member.resolve_left other

/-! ### Superclasses -/

theorem extends_of_parentOf? (above : h.parentOf? t = some s) : h.Extends t s := by
  simp only [parentOf?, Option.bind_eq_bind, Option.bind_eq_some_iff] at above
  obtain ⟨decl, -, name, -, first, head, kept⟩ := above
  split at kept
  · cases kept
    exact List.mem_of_head? head
  · cases kept

theorem Inherits.below (inherits : h.Inherits t s) : h.Below t s :=
  Relation.ReflTransGen.mono (fun _ _ above => extends_of_parentOf? above) _ _ inherits

theorem superclassChain_isChain {bound : Nat} {seen : List NodeId} {start : Option NodeId}
    (linked : (seen ++ start.toList).IsChain fun t s => h.parentOf? t = some s) :
    (h.superclassChain bound seen start).IsChain fun t s => h.parentOf? t = some s := by
  induction bound generalizing seen start with
  | zero => exact linked.left_of_append
  | succ bound ih =>
    cases start with
    | none => exact linked.left_of_append
    | some t =>
      rw [superclassChain]
      split
      · exact linked.left_of_append
      · apply ih
        apply List.isChain_append.mpr
        refine ⟨linked, by cases h.parentOf? t <;> simp, ?_⟩
        intro last isLast first isFirst
        rw [List.getLast?_concat] at isLast
        cases isLast
        simpa [Option.head?_toList] using isFirst

/-- A chain goes on to the next superclass as long as that one is new. -/
theorem superclassChain_closed {all : List NodeId}
    (bounded : ∀ t s, h.parentOf? t = some s → s ∈ all) {bound : Nat} {seen : List NodeId}
    {start : Option NodeId} (listed : ∀ t, start = some t → t ∈ all)
    (enough : Closure.unmet all seen < bound)
    (pending : ∀ t ∈ seen, ∀ s, h.parentOf? t = some s → s ∈ seen ∨ start = some s) :
    ∀ t ∈ h.superclassChain bound seen start, ∀ s, h.parentOf? t = some s →
      s ∈ h.superclassChain bound seen start := by
  induction bound generalizing seen start with
  | zero => omega
  | succ bound ih =>
    cases start with
    | none =>
      intro t member s above
      exact (pending t member s above).resolve_right nofun
    | some u =>
      rw [superclassChain]
      split
      · next met =>
        intro t member s above
        rcases pending t member s above with old | new
        · exact old
        · cases new
          exact List.contains_iff_mem.mp met
      · next unmet =>
        have counted := Closure.unmet_append all (List.nodup_singleton u) (by
          intro x new
          rw [List.mem_singleton.mp new]
          exact ⟨listed u rfl, fun met => unmet (List.contains_iff_mem.mpr met)⟩)
        apply ih (fun t above => bounded u t above)
        · rw [List.length_singleton] at counted
          omega
        · intro t member s above
          rcases List.mem_append.mp member with old | new
          · rcases pending t old s above with met | next
            · exact .inl (List.mem_append_left _ met)
            · cases next
              exact .inl (List.mem_append_right _ (List.mem_singleton_self u))
          · rw [List.mem_singleton.mp new] at above
            exact .inr above

theorem mem_superclassChain_of_seen {bound : Nat} {seen : List NodeId} {start : Option NodeId}
    (member : t ∈ seen) : t ∈ h.superclassChain bound seen start := by
  induction bound generalizing seen start with
  | zero => exact member
  | succ bound ih =>
    cases start with
    | none => exact member
    | some u =>
      rw [superclassChain]
      split
      · exact member
      · exact ih (List.mem_append_left _ member)

theorem Inherits.mem_superclassChain (inherits : (build p).Inherits t s) :
    s ∈ (build p).superclassChain ((build p).types.length + 2) [] (some t) := by
  have bounded : ∀ u v, (build p).parentOf? u = some v → v ∈ t :: (build p).types :=
    fun u v above => List.mem_cons_of_mem t (mem_types_of_supertype (extends_of_parentOf? above)).2
  have enough : Closure.unmet (t :: (build p).types) [] < (build p).types.length + 2 :=
    Nat.lt_succ_of_le (Closure.unmet_le _ _)
  have listed : ∀ u, some t = some u → u ∈ t :: (build p).types := by
    rintro u ⟨⟩
    exact List.mem_cons_self
  have closed := superclassChain_closed bounded listed enough (by simp)
  induction inherits with
  | refl =>
    rw [superclassChain, if_neg (by simp)]
    exact mem_superclassChain_of_seen (by simp)
  | tail _ above ih => exact closed _ ih _ above

/-- What an ancestry lists up to a superclass stands below that superclass. -/
theorem below_of_inherits {x : NodeId} {nearer farther : List NodeId}
    (listed : (build p).ancestry t = nearer ++ x :: farther) (inherits : (build p).Inherits t s)
    (later : s ∉ nearer) : (build p).Below x s := by
  obtain ⟨others, extended⟩ : (build p).superclassChain ((build p).types.length + 2) [] (some t) <+:
      (build p).ancestry t := Closure.prefix_serve _ _ _
  have linked : ((build p).superclassChain ((build p).types.length + 2) [] (some t)).IsChain
      fun t s => (build p).parentOf? t = some s :=
    superclassChain_isChain (List.isChain_singleton t)
  obtain ⟨before, after, chain⟩ := List.append_of_mem inherits.mem_superclassChain
  rw [chain] at extended linked
  -- both the way to `x` and the way to `s` are beginnings of the ancestry
  have found : nearer ++ [x] <+: (build p).ancestry t := ⟨farther, by simp [listed]⟩
  have superclass : before ++ [s] <+: (build p).ancestry t := ⟨after ++ others, by simp [← extended]⟩
  have linked : (before ++ [s]).IsChain fun t s => (build p).parentOf? t = some s :=
    linked.prefix ⟨after, by simp⟩
  have reach : ∀ y ∈ before ++ [s], (build p).Inherits y s :=
    linked.backwards_induction _ _ (fun _ _ above rest => .head above rest)
      fun _ => by rw [List.getLast_concat]; exact .refl
  rcases List.prefix_or_prefix_of_prefix found superclass with shorter | longer
  · exact (reach x (shorter.subset (by simp))).below
  · rcases List.prefix_concat_iff.mp longer with same | earlier
    · have same : s = x := by simpa using (List.append_inj' same rfl).2
      rw [same]
      exact .refl
    · exact absurd (earlier.subset (by simp)) later

/-! ### Overriding declarations -/

end Hierarchy

def Program.isStatic (p : Program) (m : NodeId) : Bool := (p.callable? m).any (·.isStatic)

namespace Hierarchy

variable {p : Program} {h : Hierarchy}

/-- The step by which a subtype adds its own declaration of a signature. -/
def override (h : Hierarchy) (signature : String) (result : List NodeId) (sub : NodeId) :
    List NodeId :=
  match h.methodWithSignature? sub signature with
  | some m =>
    if h.program.isStatic m || result.contains m then result
    else result ++ [m]
  | none => result

theorem mem_foldl_override {signature : String} {subs result : List NodeId} {m : NodeId} :
    m ∈ subs.foldl (h.override signature) result ↔ m ∈ result ∨ ∃ sub ∈ subs,
      h.methodWithSignature? sub signature = some m ∧ ¬h.program.isStatic m := by
  induction subs generalizing result with
  | nil => simp
  | cons sub subs ih =>
    rw [List.foldl_cons, ih, override]
    split
    · next x found =>
      split
      · next known =>
        rw [Bool.or_eq_true, List.contains_iff_mem] at known
        grind
      · next unknown =>
        rw [Bool.or_eq_true, List.contains_iff_mem, not_or] at unknown
        grind
    · next none =>
      grind

theorem mem_overriddenBy {decl owner m : NodeId} {signature : String}
    (owned : p.enclosingType? decl = some owner) (signed : p.signature? decl = some signature) :
    m ∈ (build p).overriddenBy decl ↔ m = decl ∨ ∃ sub, ((build p).Below sub owner ∧ sub ≠ owner) ∧
      (build p).methodWithSignature? sub signature = some m ∧ ¬p.isStatic m := by
  have folded : (build p).overriddenBy decl =
      (((build p).subclassesOf owner).drop 1).foldl ((build p).override signature) [decl] := by
    have program : (build p).program = p := rfl
    simp only [overriddenBy, program, owned, signed]
    rfl
  rw [folded, mem_foldl_override]
  simp only [List.mem_singleton, mem_drop_subclassesOf]
  rfl

end Hierarchy

end JavaCallGraph
