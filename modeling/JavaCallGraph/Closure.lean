import JavaCallGraph.Error

/-!
Breadth-first closures of a successor function.

A listing shows every element at the place where it is first met. `serve` lists an element when it is
queued, so each is queued once; `drain` lists an element when it is taken from the queue, where it
may stand several times. Neither loop asks twice what an element leads to, so the steps can be
bounded.
-/

namespace JavaCallGraph.Closure

/-- The elements of a list that are not in `seen`, each once, in order. -/
def fresh (seen : List NodeId) : List NodeId → List NodeId
  | [] => []
  | x :: rest => if seen.contains x then fresh seen rest else x :: fresh (seen ++ [x]) rest

/-- Serve the queue: what a served element leads to is seen and queued, if it is new. -/
def serve (next : NodeId → List NodeId) : (steps : Nat) → (queue seen : List NodeId) → List NodeId
  | 0, _, seen => seen
  | _ + 1, [], seen => seen
  | steps + 1, x :: queue, seen =>
    let new := fresh seen (next x)
    serve next steps (queue ++ new) (seen ++ new)

/-- Empty the queue: an element that was not met before is listed, and all that it leads to is queued
behind the rest. -/
def drain (next : NodeId → List NodeId) : (steps : Nat) → (queue seen : List NodeId) → List NodeId
  | 0, _, seen => seen
  | _ + 1, [], seen => seen
  | steps + 1, x :: queue, seen =>
    if seen.contains x then drain next steps queue seen
    else drain next steps (queue ++ next x) (seen ++ [x])

theorem mem_fresh {seen xs : List NodeId} {x : NodeId} :
    x ∈ fresh seen xs ↔ x ∈ xs ∧ x ∉ seen := by
  induction xs generalizing seen with
  | nil => simp [fresh]
  | cons y rest ih =>
    by_cases h : y ∈ seen
    · simp only [fresh, List.contains_iff_mem, h, if_true, ih, List.mem_cons]
      grind
    · simp only [fresh, List.contains_iff_mem, h, if_false, ih, List.mem_cons, List.mem_append]
      grind

theorem nodup_fresh (seen xs : List NodeId) : (fresh seen xs).Nodup := by
  induction xs generalizing seen with
  | nil => simp [fresh]
  | cons y rest ih =>
    by_cases h : y ∈ seen
    · simpa [fresh, h] using ih seen
    · simp [fresh, h, ih, mem_fresh]

end JavaCallGraph.Closure
