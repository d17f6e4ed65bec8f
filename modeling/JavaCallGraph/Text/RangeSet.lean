/-!
Sets of code points given by the points at which membership changes.

A strictly increasing list `[a, b, c, d]` stands for the code points in `a ≤ n < b` or
`c ≤ n < d`: a code point belongs to the set when an odd number of changes lie at or below it.
-/

namespace JavaCallGraph.Text

/-- A set of code points, as the increasing list of places where membership flips. -/
structure RangeSet where
  flips : List Nat

namespace RangeSet

/-- Walk the changes up to `n`, starting from membership `inside`. -/
def flipsUpTo (n : Nat) : Bool → List Nat → Bool
  | inside, [] => inside
  | inside, f :: rest => if f ≤ n then flipsUpTo n (!inside) rest else inside

def contains (s : RangeSet) (c : Char) : Bool := flipsUpTo c.toNat false s.flips

@[simp] theorem contains_empty (c : Char) : (RangeSet.mk []).contains c = false := rfl

end RangeSet

end JavaCallGraph.Text
