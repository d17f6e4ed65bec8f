import Mathlib.Logic.Relation

/-!
Loops without a bound.

The listings of this library are computed with a bound on their steps. That the bound is never met
is said by the loop itself: repeating its step, as long as there is one, leads to the listing.
-/

namespace JavaCallGraph.Loop

variable {σ : Type} {next : σ → Option σ} {s t final : σ}

/-- A loop that repeats `next` comes to an end in `final`. -/
def Ends (next : σ → Option σ) (start final : σ) : Prop :=
  Relation.ReflTransGen (fun s t => next s = some t) start final ∧ next final = none

theorem Ends.here (done : next s = none) : Ends next s s := ⟨.refl, done⟩

theorem Ends.step (first : next s = some t) (rest : Ends next t final) : Ends next s final :=
  ⟨.head first rest.1, rest.2⟩

/-- In a loop that takes items from a stack and lists what they yield, items that are done one by one
are done together. -/
theorem Ends.stacked {α β : Type} {next : List α × List β → Option (List α × List β)}
    {final : List α × List β} {items stack : List α} {listed : List β} (yields : α → List β)
    (each : ∀ x ∈ items, ∀ stack listed,
      Ends next (stack, listed ++ yields x) final → Ends next (x :: stack, listed) final)
    (rest : Ends next (stack, listed ++ items.flatMap yields) final) :
    Ends next (items ++ stack, listed) final := by
  induction items generalizing listed with
  | nil => simpa using rest
  | cons x later ih =>
    apply each x List.mem_cons_self
    apply ih fun y member => each y (List.mem_cons_of_mem x member)
    simpa using rest

end JavaCallGraph.Loop
