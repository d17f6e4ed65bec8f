/-!
A well-founded order on agendas.

An agenda gets smaller when its first rank is replaced by any number of smaller ranks. Work lists
whose items only ever schedule items of smaller rank therefore run dry, however many those are.
-/

namespace JavaCallGraph.Walk

/-- The ranks of the items still to do, next one first. -/
structure Agenda where
  ranks : List Nat

namespace Agenda

inductive Smaller : Agenda → Agenda → Prop where
  | replace {rank : Nat} {rest scheduled : List Nat} :
      (∀ r ∈ scheduled, r < rank) → Smaller ⟨scheduled ++ rest⟩ ⟨rank :: rest⟩

theorem acc_nil : Acc Smaller ⟨[]⟩ := ⟨_, fun _ h => nomatch h⟩

theorem acc_append {rest : List Nat} (base : Acc Smaller ⟨rest⟩) (scheduled : List Nat)
    (head : ∀ r ∈ scheduled, ∀ l, Acc Smaller ⟨l⟩ → Acc Smaller ⟨r :: l⟩) :
    Acc Smaller ⟨scheduled ++ rest⟩ := by
  induction scheduled with
  | nil => exact base
  | cons r tail ih =>
    exact head r (by simp) _ (ih fun x hx => head x (by simp [hx]))

theorem acc_cons (rank : Nat) : ∀ rest, Acc Smaller ⟨rest⟩ → Acc Smaller ⟨rank :: rest⟩ := by
  induction rank using Nat.strongRecOn with
  | ind rank ih =>
    intro rest base
    refine ⟨_, fun _ smaller => ?_⟩
    cases smaller with
    | replace below => exact acc_append base _ fun r hr => ih r (below r hr)

theorem wellFounded : WellFounded Smaller :=
  ⟨fun ⟨ranks⟩ => by
    induction ranks with
    | nil => exact acc_nil
    | cons rank rest ih => exact acc_cons rank rest ih⟩

instance : WellFoundedRelation Agenda := ⟨Smaller, wellFounded⟩

end Agenda

end JavaCallGraph.Walk
