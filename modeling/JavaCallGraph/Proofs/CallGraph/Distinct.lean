import JavaCallGraph.CallGraph.Dispatch
import JavaCallGraph.Proofs.Resolver
import Mathlib.Data.List.Infix

/-!
One of each declaration.

`distinct` keeps the first of every group of declarations that count as the same. What it keeps
stands in the order of the list, nothing is kept twice, and a search that cannot tell equal
declarations apart finds the same with or without it.
-/

namespace JavaCallGraph.CallGraph

variable {p : Program} {kept : List NodeId}

theorem mem_of_distinct {candidates : List NodeId} {m : NodeId}
    (member : m ∈ distinct p kept candidates) : m ∈ kept ∨ m ∈ candidates := by
  induction candidates generalizing kept with
  | nil => exact .inl member
  | cons d rest ih =>
    rw [distinct] at member
    split at member
    · rcases ih member with old | later
      · exact .inl old
      · exact .inr (List.mem_cons_of_mem _ later)
    · rcases ih member with old | later
      · rcases List.mem_append.mp old with older | new
        · exact .inl older
        · rw [List.mem_singleton.mp new]
          exact .inr List.mem_cons_self
      · exact .inr (List.mem_cons_of_mem _ later)

theorem distinct_covers {candidates : List NodeId} {m : NodeId}
    (member : (∃ k ∈ kept, p.sameDeclaration k m) ∨ m ∈ candidates) :
    ∃ k ∈ distinct p kept candidates, p.sameDeclaration k m := by
  induction candidates generalizing kept with
  | nil => exact member.resolve_right List.not_mem_nil
  | cons d rest ih =>
    rw [distinct]
    split
    · next covered =>
      apply ih
      rcases member with old | listed
      · exact .inl old
      · rcases List.mem_cons.mp listed with rfl | later
        · exact .inl (List.any_eq_true.mp covered)
        · exact .inr later
    · apply ih
      rcases member with ⟨k, old, same⟩ | listed
      · exact .inl ⟨k, List.mem_append_left _ old, same⟩
      · rcases List.mem_cons.mp listed with rfl | later
        · exact .inl ⟨m, by simp, p.sameDeclaration_refl m⟩
        · exact .inr later

theorem distinct_append (first second : List NodeId) :
    distinct p kept (first ++ second) = distinct p (distinct p kept first) second := by
  induction first generalizing kept with
  | nil => rfl
  | cons d rest ih =>
    rw [List.cons_append, distinct, distinct]
    split <;> exact ih

theorem prefix_distinct (candidates : List NodeId) : kept <+: distinct p kept candidates := by
  induction candidates generalizing kept with
  | nil => exact List.prefix_rfl
  | cons d rest ih =>
    rw [distinct]
    split
    · exact ih
    · exact (List.prefix_append kept [d]).trans ih

/-- No two of the declarations count as the same. -/
def Apart (p : Program) (declarations : List NodeId) : Prop :=
  declarations.Pairwise fun a b => ¬p.sameDeclaration a b

theorem Apart.distinct (apart : Apart p kept) (candidates : List NodeId) :
    Apart p (distinct p kept candidates) := by
  induction candidates generalizing kept with
  | nil => exact apart
  | cons d rest ih =>
    rw [CallGraph.distinct]
    split
    · exact ih apart
    · next uncovered =>
      apply ih
      refine List.pairwise_append.mpr ⟨apart, List.pairwise_singleton _ d, ?_⟩
      intro k old x new same
      rw [List.mem_singleton.mp new] at same
      exact uncovered (List.any_eq_true.mpr ⟨k, old, same⟩)

/-- A search by a test that equal declarations pass together finds what it would find in the whole
list. -/
theorem find?_distinct {test : NodeId → Bool}
    (even : ∀ a b, p.sameDeclaration a b → test a = test b) (candidates : List NodeId) :
    (distinct p kept candidates).find? test = (kept ++ candidates).find? test := by
  induction candidates generalizing kept with
  | nil => rw [distinct, List.append_nil]
  | cons d rest ih =>
    rw [distinct]
    split
    · next covered =>
      rw [ih, List.find?_append, List.find?_append, List.find?_cons]
      cases passes : test d with
      | false => rfl
      | true =>
        -- a declaration equal to `d` was kept before, and passes as well
        obtain ⟨k, old, same⟩ := List.any_eq_true.mp covered
        have found : (kept.find? test).isSome :=
          List.find?_isSome.mpr ⟨k, old, (even k d same).trans passes⟩
        obtain ⟨x, found⟩ := Option.isSome_iff_exists.mp found
        rw [found]
        rfl
    · rw [ih, List.append_assoc]
      rfl

/-- Starting with what would be kept first changes nothing. -/
theorem distinct_of_prefix {start candidates : List NodeId} (older : kept <+: start)
    (first : start <+: distinct p kept candidates) :
    distinct p start candidates = distinct p kept candidates := by
  induction candidates generalizing kept with
  | nil => exact first.eq_of_length_le older.length_le
  | cons d rest ih =>
    rw [distinct] at first
    rw [distinct, distinct]
    split at first
    · next covered =>
      obtain ⟨k, old, same⟩ := List.any_eq_true.mp covered
      rw [if_pos (List.any_eq_true.mpr ⟨k, older.subset old, same⟩), if_pos covered]
      exact ih older first
    · next uncovered =>
      have next : start = kept ∨ kept ++ [d] <+: start := by
        rcases List.prefix_or_prefix_of_prefix first (prefix_distinct rest) with short | long
        · rcases List.prefix_concat_iff.mp short with rfl | shorter
          · exact .inr List.prefix_rfl
          · exact .inl (shorter.eq_of_length_le older.length_le)
        · exact .inr long
      rcases next with rfl | long
      · rfl
      · have covered : start.any (p.sameDeclaration · d) :=
          List.any_eq_true.mpr ⟨d, long.subset (by simp), p.sameDeclaration_refl d⟩
        rw [if_pos covered, if_neg uncovered]
        exact ih long first

end JavaCallGraph.CallGraph
