/-!
Look-up tables that keep several values per key, in order of insertion.
-/

namespace JavaCallGraph

/-- One bucket per key. Keys stand in order of their first insertion, values of a bucket in order
of insertion. -/
structure Index (κ : Type) (α : Type) where
  buckets : List (κ × List α) := []
  deriving Repr

namespace Index

variable {κ α : Type} [DecidableEq κ]

def empty : Index κ α := {}

/-- The values of a key in a list of buckets. -/
def lookup (k : κ) : List (κ × List α) → List α
  | [] => []
  | (key, values) :: rest => if key = k then values else lookup k rest

/-- Add a value at the end of a key's bucket. -/
def insertInto (k : κ) (a : α) : List (κ × List α) → List (κ × List α)
  | [] => [(k, [a])]
  | (key, values) :: rest =>
    if key = k then (key, values ++ [a]) :: rest else (key, values) :: insertInto k a rest

def get (ix : Index κ α) (k : κ) : List α := lookup k ix.buckets

def insert (ix : Index κ α) (k : κ) (a : α) : Index κ α := ⟨insertInto k a ix.buckets⟩

/-- Enter all pairs in order. -/
def insertAll (ix : Index κ α) (pairs : List (κ × α)) : Index κ α :=
  pairs.foldl (fun ix (k, a) => ix.insert k a) ix

def ofPairs (pairs : List (κ × α)) : Index κ α := empty.insertAll pairs

/-- The number of values in all buckets. -/
def size (ix : Index κ α) : Nat := (ix.buckets.flatMap (·.2)).length

@[simp] theorem get_empty (k : κ) : (empty : Index κ α).get k = [] := rfl

theorem lookup_insertInto_self (k : κ) (a : α) (bs : List (κ × List α)) :
    lookup k (insertInto k a bs) = lookup k bs ++ [a] := by
  induction bs with
  | nil => simp [insertInto, lookup]
  | cons b rest ih => by_cases h : b.1 = k <;> simp [insertInto, lookup, h, ih]

theorem lookup_insertInto_of_ne {k k' : κ} (h : k' ≠ k) (a : α) (bs : List (κ × List α)) :
    lookup k (insertInto k' a bs) = lookup k bs := by
  induction bs with
  | nil => simp [insertInto, lookup, h]
  | cons b rest ih =>
    by_cases hb : b.1 = k'
    · simp [insertInto, lookup, hb, h]
    · by_cases hk : b.1 = k <;> simp [insertInto, lookup, hb, hk, ih, h.symm]

@[simp] theorem get_insert_self (ix : Index κ α) (k : κ) (a : α) :
    (ix.insert k a).get k = ix.get k ++ [a] :=
  lookup_insertInto_self k a ix.buckets

theorem get_insert_of_ne (ix : Index κ α) {k k' : κ} (h : k' ≠ k) (a : α) :
    (ix.insert k' a).get k = ix.get k :=
  lookup_insertInto_of_ne h a ix.buckets

/-- A bucket of a table made from pairs holds the values paired with its key, in order. -/
theorem get_insertAll (ix : Index κ α) (pairs : List (κ × α)) (k : κ) :
    (ix.insertAll pairs).get k = ix.get k ++ (pairs.filter (·.1 = k)).map (·.2) := by
  induction pairs generalizing ix with
  | nil => simp [insertAll]
  | cons p rest ih =>
    have step : ix.insertAll (p :: rest) = (ix.insert p.1 p.2).insertAll rest := rfl
    rw [step, ih]
    by_cases h : p.1 = k
    · subst h; simp
    · simp [get_insert_of_ne ix h, h]

@[simp] theorem get_ofPairs (pairs : List (κ × α)) (k : κ) :
    (ofPairs pairs).get k = (pairs.filter (·.1 = k)).map (·.2) := by
  simp [ofPairs, get_insertAll]

end Index

end JavaCallGraph
