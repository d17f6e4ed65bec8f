import JavaCallGraph.Proofs.CallGraph.ImplicitReceivers
import JavaCallGraph.Proofs.Supertypes

/-!
Which of several inherited methods with one signature is run.

The ancestry of a type starts with its line of superclasses and goes on breadth first. So the nearest
superclass with the signature wins, and where none has it, a type that is reached in as few steps as
any other. A supertype may be reached in fewer steps than a subtype that overrides its method, and
then the supertype wins.
-/

namespace JavaCallGraph

/-! ### The order of a closure -/

namespace Closure

variable {next : NodeId → List NodeId} {start : List NodeId}

/-- At most the given number of steps lead to an element. -/
def Within (next : NodeId → List NodeId) (start : List NodeId) : Nat → NodeId → Prop
  | 0, y => y ∈ start
  | n + 1, y => Within next start n y ∨ ∃ x, Within next start n x ∧ y ∈ next x

/-- No more steps lead to the first element than to the second. -/
def NoFarther (next : NodeId → List NodeId) (start : List NodeId) (x y : NodeId) : Prop :=
  ∀ n, Within next start n y → Within next start n x

theorem Within.mono {n m : Nat} (le : n ≤ m) {y : NodeId} (within : Within next start n y) :
    Within next start m y := by
  induction le with
  | refl => exact within
  | step _ ih => exact .inl ih

/-- The queue is what is left of one level, and then what was met of the next one. -/
structure Levels (next : NodeId → List NodeId) (start : List NodeId) (level : Nat)
    (left new seen : List NodeId) : Prop where
  queued : ∀ x ∈ left, Within next start level x
  near : ∀ y, Within next start level y ↔ y ∈ seen ∧ y ∉ new
  far : ∀ y ∈ new, Within next start (level + 1) y
  served : ∀ x, Within next start level x → x ∈ left ∨ ∀ y ∈ next x, y ∈ seen
  sorted : seen.Pairwise (NoFarther next start)

namespace Levels

variable {level : Nat} {left new seen : List NodeId}

theorem of_start (start : List NodeId) : Levels next start 0 start [] start where
  queued x first := first
  near y := by simp [Within]
  far := List.forall_mem_nil _
  served x first := .inl first
  sorted := List.pairwise_iff_forall_sublist.mpr fun pair n _ =>
    Within.mono (Nat.zero_le n) (pair.subset List.mem_cons_self)

theorem reach (levels : Levels next start level left new seen) :
    ∀ y ∈ seen, Within next start (level + 1) y := by
  intro y met
  by_cases late : y ∈ new
  · exact levels.far y late
  · exact .inl ((levels.near y).mpr ⟨met, late⟩)

/-- What is not seen yet is as far as anything that is seen. -/
theorem noFarther_of_unseen (levels : Levels next start level left new seen) {x y : NodeId}
    (reached : Within next start (level + 1) x) (unseen : y ∉ seen) : NoFarther next start x y := by
  intro n within
  by_cases le : n ≤ level
  · exact absurd ((levels.near y).mp (within.mono le)).1 unseen
  · exact reached.mono (Nat.lt_of_not_le le)

theorem serve_one {x : NodeId} (levels : Levels next start level (x :: left) new seen) :
    Levels next start level left (new ++ fresh seen (next x)) (seen ++ fresh seen (next x)) := by
  have met : ∀ y ∈ fresh seen (next x), Within next start (level + 1) y := fun y isFresh =>
    .inr ⟨x, levels.queued x List.mem_cons_self, (mem_fresh.mp isFresh).1⟩
  have unseen : ∀ y ∈ fresh seen (next x), y ∉ seen := fun y isFresh => (mem_fresh.mp isFresh).2
  constructor
  case queued => exact fun y waiting => levels.queued y (List.mem_cons_of_mem x waiting)
  case near =>
    intro y
    rw [levels.near y, List.mem_append, List.mem_append]
    have := unseen y
    tauto
  case far => exact List.forall_mem_append.mpr ⟨levels.far, met⟩
  case served =>
    intro y within
    rcases levels.served y within with waiting | done
    · rcases List.mem_cons.mp waiting with rfl | waiting
      · right
        intro z led
        by_cases old : z ∈ seen
        · exact List.mem_append_left _ old
        · exact List.mem_append_right _ (mem_fresh.mpr ⟨led, old⟩)
      · exact .inl waiting
    · exact .inr fun z led => List.mem_append_left _ (done z led)
  case sorted =>
    apply List.pairwise_append.mpr
    refine ⟨levels.sorted, ?_, ?_⟩
    · apply List.pairwise_iff_forall_sublist.mpr
      intro y z pair
      apply levels.noFarther_of_unseen
      · exact met y (pair.subset List.mem_cons_self)
      · exact unseen z (pair.subset (List.mem_cons_of_mem _ List.mem_cons_self))
    · intro y old z isFresh
      exact levels.noFarther_of_unseen (levels.reach y old) (unseen z isFresh)

/-- Once a level is served, all of the next one is met. -/
theorem next_level (levels : Levels next start level [] new seen) :
    Levels next start (level + 1) new [] seen := by
  have done : ∀ x, Within next start level x → ∀ y ∈ next x, y ∈ seen := fun x within =>
    (levels.served x within).resolve_left List.not_mem_nil
  have met : ∀ y, Within next start (level + 1) y → y ∈ seen := by
    rintro y (within | ⟨x, within, led⟩)
    · exact ((levels.near y).mp within).1
    · exact done x within y led
  constructor
  case queued => exact levels.far
  case near =>
    intro y
    simp only [List.not_mem_nil, not_false_eq_true, and_true]
    exact ⟨met y, levels.reach y⟩
  case far => exact List.forall_mem_nil _
  case served =>
    intro x within
    by_cases late : x ∈ new
    · exact .inl late
    · exact .inr (done x ((levels.near x).mpr ⟨met x within, late⟩))
  case sorted => exact levels.sorted

theorem serve_sorted (levels : Levels next start level left new seen) (steps : Nat) :
    (serve next steps (left ++ new) seen).Pairwise (NoFarther next start) := by
  induction steps generalizing level left new seen with
  | zero => exact levels.sorted
  | succ steps ih =>
    -- a level that is used up gives way to the next one
    have front : ∀ {level x left new}, Levels next start level (x :: left) new seen →
        (serve next (steps + 1) (x :: left ++ new) seen).Pairwise (NoFarther next start) := by
      intro level x left new levels
      rw [List.cons_append, serve, List.append_assoc]
      exact ih levels.serve_one
    cases left with
    | cons x left => exact front levels
    | nil =>
      cases new with
      | nil => exact levels.sorted
      | cons x new =>
        have next := front levels.next_level
        rwa [List.append_nil] at next

end Levels

/-- A closure lists what is nearer to the start first. -/
theorem serve_by_distance (steps : Nat) (start : List NodeId) :
    (serve next steps start start).Pairwise (NoFarther next start) := by
  have levels : Levels next start 0 start [] start := .of_start start
  have sorted := levels.serve_sorted steps
  rwa [List.append_nil] at sorted

end Closure

namespace Hierarchy

variable {p : Program} {h : Hierarchy} {t s : NodeId}

/-! ### Lines of superclasses -/

/-- The way up from a type, superclass by superclass, to the first one that is missing or was met
before. -/
structure SuperclassLine (h : Hierarchy) (t : NodeId) (line : List NodeId) : Prop where
  starts : line.head? = some t
  linked : line.IsChain fun t s => h.parentOf? t = some s
  nodup : line.Nodup
  ends : ∀ last ∈ line.getLast?, ∀ s, h.parentOf? last = some s → s ∈ line

theorem superclassLine_superclasses (p : Program) (t : NodeId) :
    (build p).SuperclassLine t ((build p).superclasses t) := by
  obtain ⟨rest, listed⟩ := singleton_prefix_superclasses (build p) t
  constructor
  case starts => rw [← listed]; rfl
  case linked => exact superclassChain_isChain (List.isChain_singleton t)
  case nodup => exact superclassChain_nodup List.nodup_nil
  case ends =>
    intro last isLast s above
    have inherits : (build p).Inherits t last := by
      apply inherits_of_mem_superclassChain _ _ (List.mem_of_getLast? isLast)
      · exact fun y member => absurd member List.not_mem_nil
      · rintro y ⟨⟩
        exact .refl
    exact Inherits.mem_superclassChain (inherits.tail above)

/-- Two ways up from one type go the same way as far as both go. -/
theorem prefix_of_linked {line other : List NodeId}
    (linked : line.IsChain fun t s => h.parentOf? t = some s)
    (linked' : other.IsChain fun t s => h.parentOf? t = some s) (same : line.head? = other.head?) :
    line <+: other ∨ other <+: line := by
  induction line generalizing other with
  | nil => exact .inl List.nil_prefix
  | cons t rest ih =>
    cases other with
    | nil => cases same
    | cons u others =>
      cases same
      have upward : rest.head? = others.head? ∨ rest = [] ∨ others = [] := by
        cases rest with
        | nil => exact .inr (.inl rfl)
        | cons s rest =>
          cases others with
          | nil => exact .inr (.inr rfl)
          | cons s' others =>
            left
            exact (List.isChain_cons_cons.mp linked).1.symm.trans (List.isChain_cons_cons.mp linked').1
      rcases upward with same | rfl | rfl
      · exact (ih linked.tail linked'.tail same).imp (List.prefix_cons_inj t).mpr
          (List.prefix_cons_inj t).mpr
      · exact .inl ⟨others, rfl⟩
      · exact .inr ⟨rest, rfl⟩

namespace SuperclassLine

variable {line other : List NodeId}

theorem eq_of_prefix (first : h.SuperclassLine t line) (second : h.SuperclassLine t other)
    (shorter : line <+: other) : line = other := by
  obtain ⟨rest, rfl⟩ := shorter
  cases rest with
  | nil => rw [List.append_nil]
  | cons s rest =>
    -- the longer one goes on where the shorter one ends, so back into the shorter one
    have some : line.getLast? ≠ none := by
      intro none
      rw [List.getLast?_eq_none_iff.mp none] at first
      cases first.starts
    obtain ⟨last, isLast⟩ := Option.ne_none_iff_exists'.mp some
    have above : h.parentOf? last = Option.some s :=
      (List.isChain_append.mp second.linked).2.2 last isLast s rfl
    have met : s ∈ line := first.ends last isLast s above
    exact absurd second.nodup (fun nodup =>
      (List.nodup_append.mp nodup).2.2 s met s List.mem_cons_self rfl)

theorem unique (first : h.SuperclassLine t line) (second : h.SuperclassLine t other) :
    line = other := by
  have same := first.starts.trans second.starts.symm
  rcases prefix_of_linked first.linked second.linked same with shorter | longer
  · exact first.eq_of_prefix second shorter
  · exact (second.eq_of_prefix first longer).symm

theorem eq_superclasses (superclasses : (build p).SuperclassLine t line) :
    line = (build p).superclasses t :=
  superclasses.unique (superclassLine_superclasses p t)

end SuperclassLine

end Hierarchy

/-! ### Declarations of a signature -/

namespace Program

variable {p : Program} {type m : NodeId} {signature : String}

def DeclaresSignature (p : Program) (type : NodeId) (signature : String) : Prop :=
  ∃ m ∈ p.methodsOf type, p.signature? m = some signature

/-- The first method of a type with a signature. -/
def DeclaresFirst (p : Program) (type : NodeId) (signature : String) (m : NodeId) : Prop :=
  p.signature? m = some signature ∧ ∃ before after, p.methodsOf type = before ++ m :: after ∧
    ∀ x ∈ before, p.signature? x ≠ some signature

theorem DeclaresFirst.mem_methodsOf (first : p.DeclaresFirst type signature m) :
    m ∈ p.methodsOf type := by
  obtain ⟨-, before, after, methods, -⟩ := first
  simp [methods]

theorem DeclaresFirst.declares (first : p.DeclaresFirst type signature m) :
    p.DeclaresSignature type signature := ⟨m, first.mem_methodsOf, first.1⟩

end Program

namespace Hierarchy

variable {p : Program} {t decl m : NodeId} {signature : String}

theorem methodWithSignature?_eq_some :
    (build p).methodWithSignature? t signature = some m ↔ p.DeclaresFirst t signature m := by
  rw [methodWithSignature?, List.find?_eq_some_iff_append]
  simp only [beq_iff_eq, Bool.not_eq_true', beq_eq_false_iff_ne]
  rfl

theorem methodWithSignature?_eq_none :
    (build p).methodWithSignature? t signature = none ↔ ¬p.DeclaresSignature t signature := by
  rw [methodWithSignature?, List.find?_eq_none, Program.DeclaresSignature]
  simp only [beq_iff_eq, not_exists, not_and]
  rfl

theorem findBySignature?_eq (signed : p.signature? decl = some signature) :
    (build p).findBySignature? t decl =
      ((build p).ancestry t).findSome? fun s => (build p).methodWithSignature? s signature := by
  have signed : (build p).program.signature? decl = some signature := signed
  rw [findBySignature?, signed]
  rfl

/-- A search ends at the first type of the ancestry that declares the signature. -/
theorem findBySignature?_eq_some (signed : p.signature? decl = some signature) :
    (build p).findBySignature? t decl = some m ↔ ∃ nearer s farther,
      (build p).ancestry t = nearer ++ s :: farther ∧ p.DeclaresFirst s signature m ∧
        ∀ u ∈ nearer, ¬p.DeclaresSignature u signature := by
  rw [findBySignature?_eq signed, List.findSome?_eq_some_iff]
  simp only [methodWithSignature?_eq_some, methodWithSignature?_eq_none]

theorem findBySignature?_eq_none (signed : p.signature? decl = some signature) :
    (build p).findBySignature? t decl = none ↔
      ∀ s ∈ (build p).ancestry t, ¬p.DeclaresSignature s signature := by
  rw [findBySignature?_eq signed, List.findSome?_eq_none_iff]
  simp only [methodWithSignature?_eq_none]

theorem superclasses_prefix_ancestry (h : Hierarchy) (t : NodeId) :
    h.superclasses t <+: h.ancestry t := Closure.prefix_serve _ _ _

theorem SuperclassLine.prefix_ancestry {line : List NodeId}
    (isLine : (build p).SuperclassLine t line) : line <+: (build p).ancestry t := by
  rw [isLine.eq_superclasses]
  exact superclasses_prefix_ancestry _ t

/-- Among the superclasses of a type the nearest one with a signature is the one whose method is
found, and the first of its methods with the signature. A method of another supertype is found only
if no superclass has the signature, and none at all only if no supertype has it. -/
theorem superclasses_win (signed : p.signature? decl = some signature) (t : NodeId) :
    (∃! line, (build p).SuperclassLine t line) ∧
      ∀ line, (build p).SuperclassLine t line →
        ((∃ s ∈ line, p.DeclaresSignature s signature) →
          ∃ nearer s farther m, line = nearer ++ s :: farther ∧
            (∀ u ∈ nearer, ¬p.DeclaresSignature u signature) ∧ p.DeclaresFirst s signature m ∧
              (build p).findBySignature? t decl = some m) ∧
        ((∀ s ∈ line, ¬p.DeclaresSignature s signature) →
          ∀ m, (build p).findBySignature? t decl = some m →
            ∃ s ∈ (build p).ancestry t, s ∉ line ∧ p.DeclaresFirst s signature m) ∧
        ((build p).findBySignature? t decl = none ↔
          ∀ s, Relation.ReflTransGen (Declares p) t s → ¬p.DeclaresSignature s signature) := by
  refine ⟨⟨_, superclassLine_superclasses p t, fun _ line => line.eq_superclasses⟩, ?_⟩
  intro line isLine
  obtain ⟨others, listed⟩ := isLine.prefix_ancestry
  refine ⟨?_, ?_, ?_⟩
  · rintro ⟨s, among, declares⟩
    cases found : line.findSome? ((build p).methodWithSignature? · signature) with
    | none =>
      have none := List.findSome?_eq_none_iff.mp found s among
      exact absurd declares (methodWithSignature?_eq_none.mp none)
    | some m =>
      obtain ⟨nearer, s, farther, rfl, first, before⟩ := List.findSome?_eq_some_iff.mp found
      rw [methodWithSignature?_eq_some] at first
      simp only [methodWithSignature?_eq_none] at before
      refine ⟨nearer, s, farther, m, rfl, before, first, ?_⟩
      apply (findBySignature?_eq_some signed).mpr
      exact ⟨nearer, s, farther ++ others, by simp [← listed], first, before⟩
  · intro none m found
    obtain ⟨nearer, s, farther, listed', first, -⟩ := (findBySignature?_eq_some signed).mp found
    exact ⟨s, by simp [listed'], fun among => none s among first.declares, first⟩
  · rw [findBySignature?_eq_none signed]
    simp only [mem_ancestry, below_iff]

/-- Two classes that extend each other, of which the second declares `m`, and an interface of the
first that declares it too. -/
def mutualClasses : Program :=
  Program.empty
    |>.addUnit { path := "A.java" }
    |>.append ⟨0⟩
      (.type { kind := .classType, name := "A", superclass := some "B", interfaces := ["I"] })
      .unknown
    |>.append ⟨0⟩ (.type { kind := .classType, name := "B", superclass := some "A" }) .unknown
    |>.append ⟨2⟩ (.callable (.method "m")) .unknown
    |>.append ⟨0⟩ (.type { kind := .interfaceType, name := "I" }) .unknown
    |>.append ⟨4⟩ (.callable (.method "m")) .unknown

/-- The line of superclasses ends where it comes back to `A`, and `B` wins against the interface. -/
theorem superclasses_win_mutualClasses :
    mutualClasses.signature? ⟨5⟩ = some "m()" ∧
      (build mutualClasses).SuperclassLine ⟨1⟩ [⟨1⟩, ⟨2⟩] ∧
      (∃ nearer s farther m, [⟨1⟩, ⟨2⟩] = nearer ++ s :: farther ∧
        (∀ u ∈ nearer, ¬mutualClasses.DeclaresSignature u "m()") ∧
          mutualClasses.DeclaresFirst s "m()" m ∧
            (build mutualClasses).findBySignature? ⟨1⟩ ⟨5⟩ = some m) ∧
      (build mutualClasses).findBySignature? ⟨1⟩ ⟨5⟩ = some ⟨3⟩ := by
  have signed : mutualClasses.signature? ⟨5⟩ = some "m()" := rfl
  have superclasses : (build mutualClasses).superclasses ⟨1⟩ = [⟨1⟩, ⟨2⟩] := by cbv
  have line := superclassLine_superclasses mutualClasses ⟨1⟩
  rw [superclasses] at line
  have declares : mutualClasses.DeclaresSignature ⟨2⟩ "m()" := ⟨⟨3⟩, by decide, rfl⟩
  have wins := ((superclasses_win signed ⟨1⟩).2 _ line).1 ⟨⟨2⟩, by simp, declares⟩
  exact ⟨signed, line, wins, rfl⟩

/-! ### Overriding declarations -/

theorem ancestry_by_distance (h : Hierarchy) (t : NodeId) :
    (h.ancestry t).Pairwise (Closure.NoFarther h.supertypesOf (h.superclasses t)) := by
  rw [ancestry_eq]
  exact Closure.serve_by_distance _ _

/-- In a hierarchy without cycles no type on a line of superclasses is followed by a subtype. -/
theorem SuperclassLine.not_below {line nearer farther : List NodeId} {owner other : NodeId}
    (isLine : (build p).SuperclassLine t line) (acyclic : (build p).Acyclic)
    (listed : line = nearer ++ owner :: farther) (follows : other ∈ farther) :
    ¬(build p).Below other owner := by
  have linked := isLine.linked
  rw [listed] at linked
  have upward : (owner :: farther).IsChain (Relation.TransGen (build p).Extends) :=
    linked.right_of_append.imp fun _ _ above => .single (extends_of_parentOf? above)
  have climbs := (List.pairwise_cons.mp (List.isChain_iff_pairwise.mp upward)).1 other follows
  exact fun below => acyclic owner (climbs.trans_left below)

/-- In a hierarchy without cycles a subtype that follows a type in an ancestry is no superclass. -/
theorem SuperclassLine.not_mem {line nearer farther : List NodeId} {owner other : NodeId}
    (isLine : (build p).SuperclassLine t line) (acyclic : (build p).Acyclic)
    (listed : (build p).ancestry t = nearer ++ owner :: farther) (later : other ∈ farther)
    (below : (build p).Below other owner) : other ∉ line := by
  intro superclass
  have start : nearer ++ [owner] <+: (build p).ancestry t := ⟨farther, by simp [listed]⟩
  have late : other ∉ nearer ++ [owner] := by
    have nodup := ancestry_nodup (build p) t
    rw [listed, ← List.singleton_append, ← List.append_assoc] at nodup
    exact fun passed => (List.nodup_append.mp nodup).2.2 other passed other later rfl
  -- the line ends before the subtype, or goes up from the owner to it
  rcases List.prefix_or_prefix_of_prefix isLine.prefix_ancestry start with shorter | ⟨rest, longer⟩
  · exact late (shorter.subset superclass)
  · have parts : line = nearer ++ owner :: rest := by simp [← longer]
    rw [← longer] at superclass
    have follows := (List.mem_append.mp superclass).resolve_left late
    exact isLine.not_below acyclic parts follows below

/-- A declaration that is found although a proper subtype of its owner declares the signature too:
the subtype is no superclass, and no fewer steps lead to it than to the owner. -/
theorem overriding_loses_only_farther (forest : p.Forest) (acyclic : (build p).Acyclic)
    (isType : p.isType t) {owner other : NodeId} {line : List NodeId}
    (isLine : (build p).SuperclassLine t line) (signed : p.signature? decl = some signature)
    (found : (build p).findBySignature? t decl = some m) (owned : p.enclosingType? m = some owner)
    (above : other ∈ (build p).ancestry t) (below : (build p).Below other owner)
    (proper : other ≠ owner) (declares : p.DeclaresSignature other signature) :
    other ∉ line ∧ Closure.NoFarther (build p).supertypesOf line owner other := by
  obtain ⟨nearer, home, farther, listed, first, before⟩ := (findBySignature?_eq_some signed).mp found
  have same : home = owner := by
    have homeIsType := (build_typed p).ancestry isType home (by simp [listed])
    have enclosed := forest.enclosingType?_member homeIsType (List.mem_filter.mp first.mem_methodsOf).1
    exact Option.some.inj (enclosed.symm.trans owned)
  subst same
  have later : other ∈ farther := by
    rw [listed] at above
    rcases List.mem_append.mp above with passed | rest
    · exact absurd declares (before other passed)
    · exact (List.mem_cons.mp rest).resolve_left proper
  constructor
  · exact isLine.not_mem acyclic listed later below
  · have sorted := ancestry_by_distance (build p) t
    rw [listed, ← isLine.eq_superclasses] at sorted
    exact (List.pairwise_cons.mp (List.pairwise_append.mp sorted).2.1).1 other later

/-- An interface `J` that overrides the method of the interface `I`, and a class that implements `I`
and `J`. -/
def bothInterfaces : Program :=
  Program.empty
    |>.addUnit { path := "C.java" }
    |>.append ⟨0⟩ (.type { kind := .interfaceType, name := "I" }) .unknown
    |>.append ⟨1⟩ (.callable (.method "m")) .unknown
    |>.append ⟨0⟩ (.type { kind := .interfaceType, name := "J", interfaces := ["I"] }) .unknown
    |>.append ⟨3⟩ (.callable (.method "m")) .unknown
    |>.append ⟨0⟩ (.type { kind := .classType, name := "C", interfaces := ["I", "J"] }) .unknown

theorem bothInterfaces_grown : bothInterfaces.Grown := by
  unfold bothInterfaces
  repeat' constructor

theorem bothInterfaces_acyclic : (build bothInterfaces).Acyclic := by
  have pairs : supertypePairs bothInterfaces (build bothInterfaces).typesByName
      (build bothInterfaces).types = [(⟨3⟩, ⟨1⟩), (⟨5⟩, ⟨1⟩), (⟨5⟩, ⟨3⟩)] := by cbv
  apply acyclic_of_lt
  rw [pairs]
  decide

theorem bothInterfaces_overrides :
    ⟨3⟩ ∈ (build bothInterfaces).ancestry ⟨5⟩ ∧ (build bothInterfaces).Below ⟨3⟩ ⟨1⟩ ∧
      bothInterfaces.DeclaresSignature ⟨3⟩ "m()" := by
  have ancestry : (build bothInterfaces).ancestry ⟨5⟩ = [⟨5⟩, ⟨1⟩, ⟨3⟩] := by cbv
  have supertypes : (build bothInterfaces).supertypesOf ⟨3⟩ = [⟨1⟩] := rfl
  have step : (build bothInterfaces).Extends ⟨3⟩ ⟨1⟩ := by simp [Extends, supertypes]
  exact ⟨by simp [ancestry], .single step, ⟨4⟩, by decide, rfl⟩

/-- For an instance of `C` the method of `I` is found, although `J` overrides it. -/
theorem overriding_interface_loses :
    (build bothInterfaces).Acyclic ∧ bothInterfaces.isType ⟨5⟩ ∧
      bothInterfaces.signature? ⟨4⟩ = some "m()" ∧
      (build bothInterfaces).findBySignature? ⟨5⟩ ⟨4⟩ = some ⟨2⟩ ∧
      bothInterfaces.enclosingType? ⟨2⟩ = some ⟨1⟩ ∧
      ⟨3⟩ ∈ (build bothInterfaces).ancestry ⟨5⟩ ∧ (build bothInterfaces).Below ⟨3⟩ ⟨1⟩ ∧
      bothInterfaces.DeclaresSignature ⟨3⟩ "m()" :=
  ⟨bothInterfaces_acyclic, by decide, rfl, rfl, rfl, bothInterfaces_overrides⟩

/-- `J` is no superclass of `C`, and like `I` it is one step away from `C`. -/
theorem overriding_loses_only_farther_bothInterfaces :
    (build bothInterfaces).SuperclassLine ⟨5⟩ [⟨5⟩] ∧
      (build bothInterfaces).findBySignature? ⟨5⟩ ⟨4⟩ = some ⟨2⟩ ∧
      ⟨3⟩ ∉ [(⟨5⟩ : NodeId)] ∧
        Closure.NoFarther (build bothInterfaces).supertypesOf [⟨5⟩] ⟨1⟩ ⟨3⟩ := by
  have superclasses : (build bothInterfaces).superclasses ⟨5⟩ = [⟨5⟩] := by cbv
  have line := superclassLine_superclasses bothInterfaces ⟨5⟩
  rw [superclasses] at line
  have found : (build bothInterfaces).findBySignature? ⟨5⟩ ⟨4⟩ = some ⟨2⟩ := rfl
  obtain ⟨above, below, declares⟩ := bothInterfaces_overrides
  exact ⟨line, found, overriding_loses_only_farther bothInterfaces_grown.forest
    bothInterfaces_acyclic (by decide) line rfl found rfl above below (by decide) declares⟩

end Hierarchy

end JavaCallGraph
