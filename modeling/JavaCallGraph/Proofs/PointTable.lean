import JavaCallGraph.Proofs.Points
import JavaCallGraph.Proofs.Program.Listing
import Mathlib.Data.List.Induction

/-!
The table of program points.

A callable lists no node twice among its points, so owner and node together tell all points apart.
The two tables of an index are filled from one numbered list and hold the same points: one under
every owner, in order, the other one by one. A search that climbs from a node asks the second table
at every step; what it finds first is the innermost of the points in the first.
-/

namespace JavaCallGraph

open scoped List

namespace Index

variable {κ α : Type} [DecidableEq κ]

theorem buckets_ofPairs_concat (pairs : List (κ × α)) (e : κ × α) :
    (ofPairs (pairs ++ [e])).buckets = insertInto e.1 e.2 (ofPairs pairs).buckets := by
  rw [ofPairs, insertAll, List.foldl_append]
  rfl

theorem insertInto_fresh {k : κ} {buckets : List (κ × List α)} (fresh : k ∉ buckets.map (·.1))
    (a : α) : insertInto k a buckets = buckets ++ [(k, [a])] := by
  induction buckets with
  | nil => rfl
  | cons b rest ih =>
    rw [List.map_cons, List.mem_cons, not_or] at fresh
    rw [insertInto, if_neg fun same => fresh.1 same.symm, ih fresh.2]
    rfl

/-- Under distinct keys every value has a bucket of its own. -/
theorem buckets_ofPairs {pairs : List (κ × α)} (distinct : (pairs.map (·.1)).Nodup) :
    (ofPairs pairs).buckets = pairs.map fun e => (e.1, [e.2]) := by
  induction pairs using List.reverseRecOn with
  | nil => rfl
  | append_singleton pairs e ih =>
    rw [List.map_append, List.nodup_append] at distinct
    obtain ⟨earlier, -, apart⟩ := distinct
    have fresh : e.1 ∉ (pairs.map fun e => (e.1, [e.2])).map (·.1) := by
      rw [List.map_map]
      exact fun listed => apart e.1 listed e.1 (by simp) rfl
    rw [buckets_ofPairs_concat, ih earlier, insertInto_fresh fresh, List.map_append]
    rfl

theorem values_insertInto (k : κ) (a : α) (buckets : List (κ × List α)) :
    (insertInto k a buckets).flatMap (·.2) ~ buckets.flatMap (·.2) ++ [a] := by
  induction buckets with
  | nil => exact .refl _
  | cons b rest ih =>
    rw [insertInto]
    split
    · simp only [List.flatMap_cons, List.append_assoc]
      exact List.perm_append_comm.append_left b.2
    · simp only [List.flatMap_cons, List.append_assoc]
      exact ih.append_left b.2

/-- A table holds the values that were entered, each as often as it was. -/
theorem values_ofPairs (pairs : List (κ × α)) :
    (ofPairs pairs).buckets.flatMap (·.2) ~ pairs.map (·.2) := by
  induction pairs using List.reverseRecOn with
  | nil => exact .refl _
  | append_singleton pairs e ih =>
    rw [buckets_ofPairs_concat, List.map_append]
    exact (values_insertInto e.1 e.2 _).trans (ih.append_right _)

end Index

namespace Program

variable {p : Program}

/-! ### No node is a point of a callable twice -/

theorem statementsIn_sublist (p : Program) (depth : Nat) (id : NodeId) :
    p.statementsIn depth id <+ p.preorder depth id := by
  induction depth generalizing id with
  | zero => exact List.Sublist.refl _
  | succ depth ih =>
    have below : (p.children id).flatMap (p.statementsIn depth) <+
        (p.children id).flatMap (p.preorder depth) :=
      List.Sublist.flatMap_right _ fun c _ => ih c
    rw [statementsIn, preorder]
    split
    · exact List.nil_sublist _
    · dsimp only
      split
      · exact below.cons_cons id
      · exact below.cons id

/-- A callable lists its statements in the order of the program. -/
theorem Forest.ownStatements_sublist (forest : p.Forest) (d : NodeId) :
    p.ownStatements d <+ p.descendants d := by
  rw [forest.descendants_eq]
  exact (List.Sublist.flatMap_right _ fun c _ => p.statementsIn_sublist _ c).cons d

theorem initializedFields_sublist (p : Program) (d : NodeId) :
    ∃ type, p.initializedFields d <+ p.children type := by
  unfold initializedFields
  split
  · split
    · next type _ => exact ⟨type, List.filter_sublist.trans List.filter_sublist⟩
    · exact ⟨d, List.nil_sublist _⟩
  · exact ⟨d, List.nil_sublist _⟩

theorem not_isStatement_of_field {n : NodeId} {test : FieldDecl → Bool}
    (field : (p.fieldDecl? n).any test) : ¬p.isStatement n := by
  obtain ⟨decl, read, -⟩ := (Option.any_eq_true _ _).mp field
  obtain ⟨decl, kind⟩ := isField_iff.mp (Option.isSome_iff_exists.mpr ⟨decl, read⟩)
  simp [isStatement, kind]

theorem Forest.pointNodes_nodup (forest : p.Forest) {d : NodeId} (callable : p.isCallable d) :
    (p.pointNodes d).Nodup := by
  obtain ⟨type, fields⟩ := p.initializedFields_sublist d
  refine List.nodup_append.mpr ⟨fields.nodup (forest.children_nodup type),
    (forest.ownStatements_sublist d).nodup (forest.descendants_nodup d), ?_⟩
  rintro n field m statement rfl
  apply not_isStatement_of_field (mem_initializedFields forest field).field
  exact (mem_ownStatements forest (isDeclaration_of_isCallable callable) statement).1

/-- What stands behind a node on the way up is what stands above the node. -/
theorem Forest.lineage_suffix (forest : p.Forest) {c a : NodeId} {before after : List NodeId}
    (line : p.lineage c = before ++ a :: after) : a :: after = p.lineage a := by
  induction before generalizing c with
  | nil =>
    obtain ⟨rfl, -⟩ := List.cons.inj line
    exact line.symm
  | cons x before ih =>
    cases above : p.parent? c with
    | none =>
      rw [lineage_root above] at line
      exact absurd (List.cons.inj line).2 (by simp)
    | some q =>
      rw [forest.lineage_child above] at line
      exact ih (List.cons.inj line).2

end Program

namespace PointIndex

variable {p : Program} {d c n : NodeId} {q : ProgramPoint}

/-! ### The points of a program -/

/-- What a point is known by. -/
def key (q : ProgramPoint) : NodeId × NodeId := (q.declaration, q.node)

/-- Owner and node of every point, in order. -/
def owned (p : Program) : List (NodeId × NodeId) :=
  ((p.allUnder p.units).filter p.isCallable).flatMap fun d => (p.pointNodes d).map (d, ·)

theorem pointsOf_eq (p : Program) :
    pointsOf p = (owned p).zipIdx.map fun e => { id := e.2, declaration := e.1.1, node := e.1.2 } :=
  rfl

theorem map_key_pointsOf (p : Program) : (pointsOf p).map key = owned p := by
  rw [pointsOf_eq, List.map_map]
  exact List.zipIdx_map_fst 0 _

theorem map_id_pointsOf (p : Program) :
    (pointsOf p).map (·.id) = List.range (pointsOf p).length := by
  have numbers : (pointsOf p).map (·.id) = (owned p).zipIdx.map Prod.snd := by
    rw [pointsOf_eq, List.map_map]
    rfl
  rw [numbers, List.zipIdx_map_snd, ← map_key_pointsOf, List.length_map, List.range_eq_range']

theorem owned_nodup (forest : p.Forest) : (owned p).Nodup := by
  refine List.nodup_flatMap.mpr ⟨fun d listed => ?_, ?_⟩
  · have callable := (List.mem_filter.mp listed).2
    exact (forest.pointNodes_nodup callable).map fun _ _ same => (Prod.mk.inj same).2
  · have distinct := forest.allUnder_units_nodup.filter p.isCallable
    refine distinct.imp fun {a b} apart => ?_
    intro e first second
    obtain ⟨_, -, rfl⟩ := List.mem_map.mp first
    obtain ⟨_, -, same⟩ := List.mem_map.mp second
    exact apart (Prod.mk.inj same).1.symm

theorem keys_nodup (forest : p.Forest) : ((pointsOf p).map key).Nodup := by
  rw [map_key_pointsOf]
  exact owned_nodup forest

/-- Points of one owner with one node are one point. -/
theorem eq_of_key (forest : p.Forest) {q q' : ProgramPoint} (member : q ∈ pointsOf p)
    (member' : q' ∈ pointsOf p) (same : key q = key q') : q = q' :=
  List.inj_on_of_nodup_map (keys_nodup forest) member member' same

/-! ### The two tables -/

/-- The points in the table by owner and node: under every key the one entered last. -/
def points (ix : PointIndex) : List ProgramPoint := ix.byNode.buckets.filterMap (·.2.getLast?)

theorem byNode_buckets (forest : p.Forest) :
    (build p).byNode.buckets = (pointsOf p).map fun q => (key q, [q]) := by
  have distinct : (((pointsOf p).map fun q => (key q, q)).map (·.1)).Nodup := by
    rw [List.map_map]
    exact keys_nodup forest
  rw [build]
  exact (Index.buckets_ofPairs distinct).trans (List.map_map ..)

theorem points_build (forest : p.Forest) : (build p).points = pointsOf p := by
  rw [points, byNode_buckets forest, List.filterMap_map]
  exact List.filterMap_some

theorem size_build (forest : p.Forest) : (build p).size = (pointsOf p).length := by
  rw [size, byNode_buckets forest, List.length_map]

theorem mem_of_build : q ∈ (build p).of d ↔ q ∈ pointsOf p ∧ q.declaration = d := by
  rw [of, build, Index.get_ofPairs]
  simp

/-- The table by owner and node finds the points that the table by owner lists. -/
theorem find?_eq_some_iff (forest : p.Forest) :
    (build p).find? d n = some q ↔ q ∈ (build p).of d ∧ q.node = n := by
  constructor
  · intro found
    obtain ⟨member, owner, node⟩ := find?_build found
    exact ⟨mem_of_build.mpr ⟨member, owner⟩, node⟩
  · rintro ⟨listed, rfl⟩
    obtain ⟨member, rfl⟩ := mem_of_build.mp listed
    obtain ⟨q', found⟩ := exists_find?_build member
    obtain ⟨member', owner, node⟩ := find?_build found
    rw [found, eq_of_key forest member' member (Prod.ext owner node)]

theorem byDeclaration_values (p : Program) :
    (build p).byDeclaration.buckets.flatMap (·.2) ~ pointsOf p := by
  have entered := Index.values_ofPairs ((pointsOf p).map fun q => (q.declaration, q))
  rw [List.map_map] at entered
  exact entered.trans (.of_eq (List.map_id _))

/-- The nodes listed for an owner: what a callable lists as its points, and nothing for others. -/
theorem map_node_of (forest : p.Forest) (d : NodeId) :
    ((build p).of d).map (·.node) = if p.isCallable d then p.pointNodes d else [] := by
  let callables := (p.allUnder p.units).filter p.isCallable
  let listed (e : NodeId) : List NodeId := if p.isCallable e then p.pointNodes e else []
  have entries : owned p = callables.flatMap fun e => (listed e).map (e, ·) := by
    refine List.flatMap_congr fun e member => ?_
    rw [show listed e = p.pointNodes e from if_pos (List.mem_filter.mp member).2]
  have nodes : ((build p).of d).map (·.node) = ((owned p).filter (·.1 = d)).map (·.2) := by
    rw [of, build, Index.get_ofPairs, ← map_key_pointsOf]
    simp only [List.filter_map, List.map_map]
    rfl
  rw [nodes, entries]
  apply Program.entries_of_owner (forest.allUnder_units_nodup.filter _)
  intro unlisted
  refine if_neg fun callable => unlisted (List.mem_filter.mpr ⟨?_, callable⟩)
  obtain ⟨decl, kind⟩ := Program.isCallable_iff.mp callable
  exact forest.mem_allUnder_units.mpr (Program.has_of_kind? kind)

/-! ### The innermost point -/

/-- A point of a list around a node, such that the other points of the list around the node lie
around the point. -/
structure Innermost (p : Program) (points : List ProgramPoint) (c : NodeId) (q : ProgramPoint) :
    Prop where
  listed : q ∈ points
  around : q.node ∈ p.lineage c
  inner : ∀ q' ∈ points, q'.node ∈ p.lineage c → q'.node ∈ p.lineage q.node

theorem containing_eq (present : p.has c) :
    (build p).containing d c =
      match (p.lineage c).findSome? ((build p).find? d) with
      | some q => .ok q
      | none => .error (.pointNotFound (p.describe c) (p.describe d)) := by
  have program : (build p).program = p := rfl
  rw [containing, program, present]
  rfl

theorem innermost_of_found (forest : p.Forest)
    (found : (p.lineage c).findSome? ((build p).find? d) = some q) :
    Innermost p ((build p).of d) c q := by
  obtain ⟨before, n, after, line, here, earlier⟩ := List.findSome?_eq_some_iff.mp found
  obtain ⟨listed, rfl⟩ := (find?_eq_some_iff forest).mp here
  refine ⟨listed, by simp [line], fun q' listed' around => ?_⟩
  rw [← forest.lineage_suffix line]
  rw [line] at around
  refine (List.mem_append.mp around).resolve_left fun lower => ?_
  -- the search would have stopped there
  have there := (find?_eq_some_iff forest).mpr ⟨listed', rfl⟩
  rw [earlier _ lower] at there
  cases there

theorem Innermost.unique (forest : p.Forest) {q' : ProgramPoint}
    (first : Innermost p ((build p).of d) c q) (second : Innermost p ((build p).of d) c q') :
    q = q' := by
  have upper := forest.le_of_mem_lineage (first.inner q' second.listed second.around)
  have lower := forest.le_of_mem_lineage (second.inner q first.listed first.around)
  obtain ⟨member, owner⟩ := mem_of_build.mp first.listed
  obtain ⟨member', owner'⟩ := mem_of_build.mp second.listed
  apply eq_of_key forest member member'
  have nodes : q.node = q'.node := by
    cases first' : q.node
    cases second' : q'.node
    rw [first', second'] at upper lower
    exact congrArg NodeId.mk (Nat.le_antisymm lower upper)
  rw [key, key, owner, owner', nodes]

theorem exists_found_iff (forest : p.Forest) :
    (∃ q, (p.lineage c).findSome? ((build p).find? d) = some q) ↔
      ∃ q ∈ (build p).of d, q.node ∈ p.lineage c := by
  constructor
  · rintro ⟨q, found⟩
    have innermost := innermost_of_found forest found
    exact ⟨q, innermost.listed, innermost.around⟩
  · rintro ⟨q, listed, around⟩
    have there := (find?_eq_some_iff forest).mpr ⟨listed, rfl⟩
    apply Option.isSome_iff_exists.mp
    exact List.findSome?_isSome_iff.mpr ⟨q.node, around, by rw [there]; rfl⟩

theorem containing_eq_ok_iff (forest : p.Forest) (present : p.has c) :
    (build p).containing d c = .ok q ↔ Innermost p ((build p).of d) c q := by
  have found : (build p).containing d c = .ok q ↔
      (p.lineage c).findSome? ((build p).find? d) = some q := by
    rw [containing_eq present]
    cases (p.lineage c).findSome? ((build p).find? d) <;> simp
  rw [found]
  constructor
  · exact innermost_of_found forest
  · intro innermost
    obtain ⟨q', first⟩ := (exists_found_iff forest).mpr ⟨q, innermost.listed, innermost.around⟩
    rw [first, (innermost_of_found forest first).unique forest innermost]

theorem exists_containing_iff (forest : p.Forest) (present : p.has c) :
    (∃ q, (build p).containing d c = .ok q) ↔ ∃ q ∈ (build p).of d, q.node ∈ p.lineage c := by
  rw [← exists_found_iff forest, containing_eq present]
  cases (p.lineage c).findSome? ((build p).find? d) <;> simp

theorem containing_eq_error_iff (forest : p.Forest) (present : p.has c) :
    (build p).containing d c = .error (.pointNotFound (p.describe c) (p.describe d)) ↔
      ∀ q ∈ (build p).of d, q.node ∉ p.lineage c := by
  have missed := not_congr (exists_found_iff (c := c) (d := d) forest)
  simp only [not_exists, not_and] at missed
  rw [← missed, containing_eq present]
  cases (p.lineage c).findSome? ((build p).find? d) <;> simp

/-- The search from a node ends at the innermost point of the declaration, and fails exactly if no
point of the declaration is around the node. All points have different numbers, from zero on, and
differ in owner or node. The table by owner lists, under each callable, the points that the other
table finds. -/
theorem containing_is_innermost (grown : p.Grown) :
    (∀ d c, p.has c →
      (∀ q, (build p).containing d c = .ok q ↔ Innermost p ((build p).of d) c q) ∧
      ((build p).containing d c = .error (.pointNotFound (p.describe c) (p.describe d)) ↔
        ∀ q ∈ (build p).of d, q.node ∉ p.lineage c) ∧
      ((∃ q, (build p).containing d c = .ok q) ↔
        ∃ q ∈ (build p).of d, q.node ∈ p.lineage c)) ∧
      (build p).points.map (·.id) = List.range (build p).size ∧
      ((build p).points.map fun q => (q.declaration, q.node)).Nodup ∧
      (build p).byDeclaration.buckets.flatMap (·.2) ~ (build p).points ∧
      ∀ d, (∀ n q, (build p).find? d n = some q ↔ q ∈ (build p).of d ∧ q.node = n) ∧
        (∀ q ∈ (build p).of d, q.declaration = d) ∧
        ((build p).of d).map (·.node) = if p.isCallable d then p.pointNodes d else [] := by
  have forest := grown.forest
  rw [points_build forest, size_build forest]
  refine ⟨fun d c present => ⟨fun q => ?_, ?_, ?_⟩, map_id_pointsOf p, keys_nodup forest,
    byDeclaration_values p, fun d => ⟨fun n q => ?_, fun q listed => ?_, map_node_of forest d⟩⟩
  · exact containing_eq_ok_iff forest present
  · exact containing_eq_error_iff forest present
  · exact exists_containing_iff forest present
  · exact find?_eq_some_iff forest
  · exact (mem_of_build.mp listed).2

/-- A class with a statement in the initializer of a field, and a constructor with a method inside
its statements. -/
def nested : Program :=
  Program.empty
    |>.addUnit { path := "A.java" }
    |>.append ⟨0⟩ (.type { kind := .classType, name := "A" }) .unknown
    |>.append ⟨1⟩ (.field { typeName := "Runnable", names := ["r"] }) .unknown
    |>.append ⟨2⟩ (.statement (.other "expression_statement")) .unknown
    |>.append ⟨3⟩ (.methodCall { name := "x" }) .unknown
    |>.append ⟨1⟩ (.callable { kind := .constructor, name := "A" }) .unknown
    |>.append ⟨5⟩ (.statement (.other "block")) .unknown
    |>.append ⟨6⟩ (.statement (.other "expression_statement")) .unknown
    |>.append ⟨7⟩ (.objectCreation { typeName := "Runnable" }) .unknown
    |>.append ⟨8⟩ (.callable (.method "run")) .unknown
    |>.append ⟨9⟩ (.statement (.other "expression_statement")) .unknown
    |>.append ⟨10⟩ (.methodCall { name := "y" }) .unknown

theorem nested_grown : nested.Grown := by
  unfold nested
  repeat' constructor

/-- From the call in the method, the search for a point of the constructor passes the statement of
the method; from the call in the field it passes a statement that belongs to no callable. -/
theorem containing_is_innermost_nested :
    (build nested).of ⟨5⟩ = [⟨0, ⟨5⟩, ⟨2⟩⟩, ⟨1, ⟨5⟩, ⟨6⟩⟩, ⟨2, ⟨5⟩, ⟨7⟩⟩] ∧
      (build nested).containing ⟨5⟩ ⟨11⟩ = .ok ⟨2, ⟨5⟩, ⟨7⟩⟩ ∧
      Innermost nested ((build nested).of ⟨5⟩) ⟨11⟩ ⟨2, ⟨5⟩, ⟨7⟩⟩ ∧
      (build nested).containing ⟨5⟩ ⟨4⟩ = .ok ⟨0, ⟨5⟩, ⟨2⟩⟩ ∧
      Innermost nested ((build nested).of ⟨5⟩) ⟨4⟩ ⟨0, ⟨5⟩, ⟨2⟩⟩ ∧
      ∀ q ∈ (build nested).of ⟨9⟩, q.node ∉ nested.lineage ⟨4⟩ := by
  have listed : (build nested).of ⟨5⟩ = [⟨0, ⟨5⟩, ⟨2⟩⟩, ⟨1, ⟨5⟩, ⟨6⟩⟩, ⟨2, ⟨5⟩, ⟨7⟩⟩] := by rfl
  have inner : (build nested).containing ⟨5⟩ ⟨11⟩ = .ok ⟨2, ⟨5⟩, ⟨7⟩⟩ := by rfl
  have field : (build nested).containing ⟨5⟩ ⟨4⟩ = .ok ⟨0, ⟨5⟩, ⟨2⟩⟩ := by rfl
  have missed : (build nested).containing ⟨9⟩ ⟨4⟩ =
      .error (.pointNotFound (nested.describe ⟨4⟩) (nested.describe ⟨9⟩)) := by rfl
  obtain ⟨search, -⟩ := containing_is_innermost nested_grown
  refine ⟨listed, inner, ?_, field, ?_, ?_⟩
  · exact ((search ⟨5⟩ ⟨11⟩ (by decide)).1 _).mp inner
  · exact ((search ⟨5⟩ ⟨4⟩ (by decide)).1 _).mp field
  · exact (search ⟨9⟩ ⟨4⟩ (by decide)).2.1.mp missed

end PointIndex

end JavaCallGraph
