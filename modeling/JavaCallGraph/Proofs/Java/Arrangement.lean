import JavaCallGraph.Java.Lowering
import Mathlib.Data.List.Basic

/-!
How the nodes of a syntax tree lie in the text.

All that is asked of a tree is asked of every node in it by itself. A node is in order if its
children lie in it one behind the other and the parts of a call come in their turn: its object, its
arguments, the body of its class. The productions of the grammar say no less, and a parser that goes
on behind an error still reduces by them.
-/

namespace JavaCallGraph.Java

namespace Syntax

/-! ### Tests of every node -/

mutual

/-- Whether a test holds of every node in a tree. -/
def everywhere (test : Syntax → Bool) : Syntax → Bool
  | .node kind field isNamed extent children =>
    test (.node kind field isNamed extent children) && everywhereIn test children

def everywhereIn (test : Syntax → Bool) : List Syntax → Bool
  | [] => true
  | t :: rest => everywhere test t && everywhereIn test rest

end

theorem everywhereIn_iff {test : Syntax → Bool} {trees : List Syntax} :
    everywhereIn test trees ↔ ∀ t ∈ trees, t.everywhere test := by
  induction trees with
  | nil => simp [everywhereIn]
  | cons t rest ih => rw [everywhereIn, Bool.and_eq_true, ih, List.forall_mem_cons]

theorem everywhere_iff {test : Syntax → Bool} {t : Syntax} :
    t.everywhere test ↔ test t ∧ ∀ c ∈ t.children, c.everywhere test := by
  obtain ⟨kind, field, isNamed, extent, children⟩ := t
  rw [everywhere, Bool.and_eq_true, everywhereIn_iff]
  rfl

theorem everywhere_mono {test weaker : Syntax → Bool} (implied : ∀ t, test t → weaker t) {t : Syntax}
    (holds : t.everywhere test) : t.everywhere weaker := by
  obtain ⟨here, inside⟩ := everywhere_iff.mp holds
  exact everywhere_iff.mpr ⟨implied t here, fun c among => everywhere_mono implied (inside c among)⟩
termination_by t
decreasing_by exact sizeOf_lt_of_mem among

theorem mem_childrenIn_of_child? {t c : Syntax} {field : String} (found : t.child? field = some c) :
    c ∈ t.childrenIn field := by
  rw [child?] at found
  exact List.mem_filter.mpr ⟨List.mem_of_find?_eq_some found, by simpa using List.find?_some found⟩

/-! ### Order -/

/-- Whether no node of the first sort comes at or behind one of the second. -/
def inTurn (first second : Syntax → Bool) (children : List Syntax) : Bool :=
  (children.dropWhile fun c => !second c).all fun c => !first c

/-- Whether the parts of a call come in their turn. -/
def partsInTurn (t : Syntax) : Bool :=
  (t.kind != "method_invocation" ||
    inTurn (·.field == some "object") (·.field == some "arguments") t.children) &&
  (t.kind != "object_creation_expression" ||
    inTurn (·.field == some "arguments") (·.kind == "class_body") t.children)

/-- Whether the children of a node lie in it, one behind the other, and the parts of a call come in
their turn. -/
def isInOrder (t : Syntax) : Bool :=
  decide (t.extent.start.byte ≤ t.extent.stop.byte) &&
  t.children.all (fun c =>
    t.extent.start.byte ≤ c.extent.start.byte && c.extent.stop.byte ≤ t.extent.stop.byte) &&
  decide (t.children.Pairwise fun a b => a.extent.stop.byte ≤ b.extent.start.byte) &&
  t.partsInTurn

end Syntax

/-! ### Nodes between two bytes -/

/-- Every node of the tree is in order. -/
def Located.InOrder (n : Located) : Prop := n.node.everywhere Syntax.isInOrder

theorem Located.InOrder.proper {n : Located} (ordered : n.InOrder) :
    n.extent.start.byte ≤ n.extent.stop.byte := by
  have here := (Syntax.everywhere_iff.mp ordered).1
  simp only [Syntax.isInOrder, Bool.and_eq_true, decide_eq_true_eq] at here
  exact here.1.1.1

/-- Nodes in order that lie between two bytes, one behind the other. -/
structure Spread (lo hi : Nat) (nodes : List Located) : Prop where
  between : ∀ n ∈ nodes, n.InOrder ∧ lo ≤ n.extent.start.byte ∧ n.extent.stop.byte ≤ hi
  apart : nodes.Pairwise fun a b => a.extent.stop.byte ≤ b.extent.start.byte

namespace Spread

variable {lo mid hi : Nat} {nodes later : List Located} {n : Located}

theorem nil : Spread lo hi [] := ⟨by simp, .nil⟩

theorem singleton (ordered : n.InOrder) : Spread n.extent.start.byte n.extent.stop.byte [n] := by
  refine ⟨fun m member => ?_, List.pairwise_singleton _ n⟩
  rw [List.mem_singleton.mp member]
  exact ⟨ordered, Nat.le_refl _, Nat.le_refl _⟩

theorem sublist (spread : Spread lo hi nodes) (part : List.Sublist later nodes) :
    Spread lo hi later :=
  ⟨fun n member => spread.between n (part.subset member), spread.apart.sublist part⟩

theorem of_cons (spread : Spread lo hi (n :: nodes)) :
    (n.InOrder ∧ lo ≤ n.extent.start.byte ∧ n.extent.stop.byte ≤ hi) ∧
      Spread n.extent.stop.byte hi nodes := by
  obtain ⟨between, apart⟩ := spread
  obtain ⟨here, rest⟩ := List.forall_mem_cons.mp between
  obtain ⟨first, apart⟩ := List.pairwise_cons.mp apart
  exact ⟨here, fun m member => ⟨(rest m member).1, first m member, (rest m member).2.2⟩, apart⟩

theorem cons (ordered : n.InOrder) (low : lo ≤ n.extent.start.byte)
    (high : n.extent.stop.byte ≤ hi) (spread : Spread n.extent.stop.byte hi nodes) :
    Spread lo hi (n :: nodes) := by
  refine ⟨?_, List.pairwise_cons.mpr ⟨fun m member => (spread.between m member).2.1, spread.apart⟩⟩
  rw [List.forall_mem_cons]
  refine ⟨⟨ordered, low, high⟩, fun m member => ?_⟩
  obtain ⟨inOrder, behind, inside⟩ := spread.between m member
  exact ⟨inOrder, Nat.le_trans low (Nat.le_trans ordered.proper behind), inside⟩

theorem mono {lo' hi' : Nat} (spread : Spread lo hi nodes) (low : lo' ≤ lo) (high : hi ≤ hi') :
    Spread lo' hi' nodes := by
  refine ⟨fun n member => ?_, spread.apart⟩
  obtain ⟨ordered, first, last⟩ := spread.between n member
  exact ⟨ordered, Nat.le_trans low first, Nat.le_trans last high⟩

theorem append (spread : Spread lo mid nodes) (behind : Spread mid hi later) (low : lo ≤ mid)
    (high : mid ≤ hi) : Spread lo hi (nodes ++ later) := by
  induction nodes generalizing lo with
  | nil => exact behind.mono low (Nat.le_refl hi)
  | cons n rest ih =>
    obtain ⟨⟨ordered, first, last⟩, rest⟩ := spread.of_cons
    exact .cons ordered first (Nat.le_trans last high) (ih rest last)

/-- What lies in nodes that are spread is spread. -/
theorem flatMap {f : Located → List Located} (spread : Spread lo hi nodes)
    (inside : ∀ n ∈ nodes, n.InOrder → Spread n.extent.start.byte n.extent.stop.byte (f n)) :
    Spread lo hi (nodes.flatMap f) := by
  induction nodes generalizing lo with
  | nil => exact nil
  | cons n rest ih =>
    obtain ⟨⟨ordered, low, high⟩, behind⟩ := spread.of_cons
    obtain ⟨here, later⟩ := List.forall_mem_cons.mp inside
    rw [List.flatMap_cons]
    exact ((here ordered).mono low (Nat.le_refl _)).append (ih behind later)
      (Nat.le_trans low ordered.proper) high

end Spread

/-! ### What stands in a node -/

namespace Located.InOrder

variable {n c : Located} {field : String}

theorem partsInTurn (ordered : n.InOrder) : n.node.partsInTurn := by
  have here := (Syntax.everywhere_iff.mp ordered).1
  rw [Syntax.isInOrder, Bool.and_eq_true] at here
  exact here.2

end Located.InOrder

end JavaCallGraph.Java
