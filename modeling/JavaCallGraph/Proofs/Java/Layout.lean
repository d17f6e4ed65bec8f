import JavaCallGraph.Proofs.Java.Placement

/-!
Where planting puts what.

A sketch takes as many numbers as it has nodes, the node itself first and then its parts one behind
the other. All nodes that were there before keep what they are, except for the one below which the
planting starts: that one is tied to the new nodes below it, and so is every new node to its parts.
-/

namespace JavaCallGraph

namespace Java

/-! ### Ties -/

/-- What a payload becomes when another node is appended to its node. -/
def Role.record (id : NodeId) (k : NodeKind) : Role → NodeKind
  | child => k
  | argument => k.addArgument id
  | receiver => k.setReceiver id

theorem Role.callKind?_record (role : Role) (id : NodeId) (k : NodeKind) :
    (role.record id k).callKind? = k.callKind? := by
  cases role <;> cases k <;> rfl

def Role.tie (role : Role) (id : NodeId) (n : Node) : Node :=
  { n with children := n.children ++ [id], kind := role.record id n.kind }

namespace Attach

variable (attach : Attach) (k : NodeKind) (s : Span) {p : Program}

/-- An insertion shows at the new node and at its parent only. -/
theorem get?_append (present : p.has attach.parent) (x : NodeId) :
    (attach.append k s p).get? x =
      if x = p.nextId then some { kind := k, parent := some attach.parent, span := s }
      else if x = attach.parent then (p.get? x).map (attach.role.tie p.nextId)
      else p.get? x := by
  have plain : ∀ {parent : NodeId}, p.has parent → (p.append parent k s).get? x =
      if x = p.nextId then some { kind := k, parent := some parent, span := s }
      else if x = parent then (p.get? x).map (Role.child.tie p.nextId)
      else p.get? x := by
    intro parent present
    rw [Program.get?_append]
    by_cases new : x = p.nextId
    · have apart : x ≠ parent := by
        rintro rfl
        exact Nat.lt_irrefl _ (Program.has_iff.mp (new ▸ present))
      simp [new, new ▸ apart]
    · by_cases same : x = parent
      · simp only [if_neg new, if_pos same]
        rfl
      · simp [if_neg new, if_neg same]
  -- the second change of a call is not seen at the new node either
  have change : ∀ (call : NodeId) (f : NodeKind → NodeKind), p.has call →
      ((p.append call k s).modify call fun n => { n with kind := f n.kind }).get? x =
        if x = p.nextId then some { kind := k, parent := some call, span := s }
        else if x = call then (p.get? x).map fun n =>
          { n with children := n.children ++ [p.nextId], kind := f n.kind }
        else p.get? x := by
    intro call f present
    rw [Program.get?_modify, plain present]
    by_cases same : x = call
    · have old : x ≠ p.nextId := by
        rintro rfl
        exact Nat.lt_irrefl _ (Program.has_iff.mp (same ▸ present))
      rw [if_pos same, if_neg old, if_pos same, if_neg old, if_pos same, Option.map_map]
      rfl
    · rw [if_neg same, if_neg same, if_neg same]
  cases attach with
  | child parent => exact plain present
  | argument call => exact change call (·.addArgument p.nextId) present
  | receiver call => exact change call (·.setReceiver p.nextId) present

end Attach

/-! ### Nodes that stay as they are -/

namespace Sketch

variable {p : Program} {a x : NodeId} {sketches : List Sketch}

/-- Planting below a node changes no other node. -/
theorem get?_plantAll_of_ne (present : p.has a) (fresh : ∀ s ∈ sketches, s.Fresh) (old : p.has x)
    (other : x ≠ a) : (plantAll a p sketches).get? x = p.get? x := by
  -- every further insertion is below the node again or below a new one
  refine (plantAll_invariant (fun parent => parent = a ∨ p.size ≤ parent.index)
    (fun q => p.size ≤ q.size ∧ q.get? x = p.get? x) ⟨Nat.le_refl _, rfl⟩ (fun inv => .inr inv.1)
      ?_ (.inl rfl) present fresh).2
  rintro q attach k extent ⟨size, same⟩ inside there -
  have early := Program.has_iff.mp old
  have apart : x ≠ attach.parent := by
    rintro rfl
    rcases inside with below | late
    · exact other below
    · exact absurd early (Nat.not_lt.mpr late)
  have before : x ≠ q.nextId := by
    rintro rfl
    exact absurd early (Nat.not_lt.mpr size)
  rw [Attach.size_append, attach.get?_append k extent.span there, if_neg before, if_neg apart]
  exact ⟨Nat.le_succ_of_le size, same⟩

/-! ### Numbers -/

mutual

/-- A sketch and all that goes below it, as they are numbered. -/
def listing : Sketch → List Sketch
  | .node role kind origin parts => .node role kind origin parts :: listings parts

def listings : List Sketch → List Sketch
  | [] => []
  | s :: rest => s.listing ++ listings rest

end

def role : Sketch → Role
  | .node role _ _ _ => role

def origin : Sketch → Located
  | .node _ _ origin _ => origin

def parts : Sketch → List Sketch
  | .node _ _ _ parts => parts

/-- The numbers of sketches that are planted one behind the other. -/
def numbers (first : Nat) : List Sketch → List NodeId
  | [] => []
  | s :: rest => ⟨first⟩ :: numbers (first + s.listing.length) rest

/-- What a node becomes when sketches are planted below it. -/
def tieAll (first : Nat) (n : Node) : List Sketch → Node
  | [] => n
  | s :: rest => tieAll (first + s.listing.length) (s.role.tie ⟨first⟩ n) rest

/-- The node of a sketch, with its parts numbered from a number on. -/
def entry (parent : NodeId) (first : Nat) : Sketch → Node
  | .node _ kind origin parts =>
    tieAll first { kind, parent := some parent, span := origin.extent.span } parts

theorem numbers_append (first : Nat) (before after : List Sketch) :
    numbers first (before ++ after) =
      numbers first before ++ numbers (first + (listings before).length) after := by
  induction before generalizing first with
  | nil => rfl
  | cons s rest ih =>
    rw [List.cons_append, numbers, ih, numbers, listings, List.length_append, Nat.add_assoc,
      List.cons_append]

theorem length_numbers (first : Nat) (sketches : List Sketch) :
    (numbers first sketches).length = sketches.length := by
  induction sketches generalizing first with
  | nil => rfl
  | cons s rest ih => rw [numbers, List.length_cons, ih, List.length_cons]

theorem tieAll_append (first : Nat) (n : Node) (before after : List Sketch) :
    tieAll first n (before ++ after) =
      tieAll (first + (listings before).length) (tieAll first n before) after := by
  induction before generalizing first n with
  | nil => rfl
  | cons s rest ih =>
    rw [List.cons_append, tieAll, ih, tieAll, listings, List.length_append, Nat.add_assoc]

theorem children_tieAll (first : Nat) (n : Node) (sketches : List Sketch) :
    (tieAll first n sketches).children = n.children ++ numbers first sketches := by
  induction sketches generalizing first n with
  | nil => rw [tieAll, numbers, List.append_nil]
  | cons s rest ih => rw [tieAll, ih, numbers, Role.tie, List.append_assoc, List.singleton_append]

theorem span_tieAll (first : Nat) (n : Node) (sketches : List Sketch) :
    (tieAll first n sketches).span = n.span := by
  induction sketches generalizing first n with
  | nil => rfl
  | cons s rest ih => rw [tieAll, ih, Role.tie]

theorem callKind?_tieAll (first : Nat) (n : Node) (sketches : List Sketch) :
    (tieAll first n sketches).kind.callKind? = n.kind.callKind? := by
  induction sketches generalizing first n with
  | nil => rfl
  | cons s rest ih => rw [tieAll, ih, Role.tie, Role.callKind?_record]

/-- Sketches in one role are recorded one after the other. -/
theorem kind_tieAll {sketches : List Sketch} {role : Role} (roles : ∀ s ∈ sketches, s.role = role)
    (first : Nat) (n : Node) :
    (tieAll first n sketches).kind =
      (numbers first sketches).foldl (fun k id => role.record id k) n.kind := by
  induction sketches generalizing first n with
  | nil => rfl
  | cons s rest ih =>
    obtain ⟨here, later⟩ := List.forall_mem_cons.mp roles
    rw [tieAll, ih later, numbers, List.foldl_cons, Role.tie, here]

theorem length_listing : (s : Sketch) → s.listing.length = (listings s.parts).length + 1
  | .node _ _ _ _ => by rw [listing, parts, List.length_cons]

theorem listings_flatMap {α : Type} (f : α → List Sketch) (l : List α) :
    listings (l.flatMap f) = l.flatMap fun x => listings (f x) := by
  have append : ∀ before after, listings (before ++ after) = listings before ++ listings after := by
    intro before after
    induction before with
    | nil => rfl
    | cons s rest ih => rw [List.cons_append, listings, ih, listings, List.append_assoc]
  induction l with
  | nil => rfl
  | cons x rest ih => rw [List.flatMap_cons, List.flatMap_cons, append, ih]

mutual

theorem size_plant (a : NodeId) (p : Program) :
    (s : Sketch) → (s.plant a p).size = p.size + s.listing.length
  | .node role kind origin parts => by
    rw [plant, size_plantAll, Attach.size_append, length_listing, Sketch.parts]
    omega

theorem size_plantAll (a : NodeId) (p : Program) :
    (sketches : List Sketch) → (plantAll a p sketches).size = p.size + (listings sketches).length
  | [] => rfl
  | s :: rest => by
    rw [plantAll, size_plantAll, size_plant, listings, List.length_append, Nat.add_assoc]

end

theorem has_plant {s : Sketch} (old : p.has x) : (s.plant a p).has x := by
  rw [Program.has_iff, size_plant]
  exact Nat.lt_add_right _ (Program.has_iff.mp old)

theorem has_nextId_plant (s : Sketch) : (s.plant a p).has p.nextId := by
  rw [Program.has_iff, size_plant, length_listing]
  exact Nat.lt_add_of_pos_right (Nat.succ_pos _)

/-! ### Where a sketch stands -/

/-- Among sketches that are planted from `first` on, `s` gets the number `i`. -/
inductive Stands : (sketches : List Sketch) → (first : Nat) → (s : Sketch) → (i : Nat) → Prop where
  | here {s : Sketch} {rest : List Sketch} {first : Nat} : Stands (s :: rest) first s first
  | part {s t : Sketch} {rest : List Sketch} {first i : Nat} :
    Stands s.parts (first + 1) t i → Stands (s :: rest) first t i
  | later {s t : Sketch} {rest : List Sketch} {first i : Nat} :
    Stands rest (first + s.listing.length) t i → Stands (s :: rest) first t i

namespace Stands

variable {sketches : List Sketch} {first i : Nat} {s : Sketch}

/-- The listing tells which sketch has a number. -/
theorem getElem?_listings (stands : Stands sketches first s i) :
    first ≤ i ∧ (listings sketches)[i - first]? = some s := by
  induction stands with
  | @here s rest first =>
    obtain ⟨role, kind, origin, parts⟩ := s
    rw [listings, listing, List.cons_append, Nat.sub_self]
    exact ⟨Nat.le_refl _, rfl⟩
  | @part s t rest first i _ ih =>
    obtain ⟨role, kind, origin, parts⟩ := s
    obtain ⟨late, found⟩ := ih
    refine ⟨by omega, ?_⟩
    rw [Sketch.parts] at found
    obtain ⟨short, -⟩ := List.getElem?_eq_some_iff.mp found
    rw [listings, listing, List.cons_append, show i - first = i - (first + 1) + 1 by omega,
      List.getElem?_cons_succ, List.getElem?_append_left short]
    exact found
  | @later s t rest first i _ ih =>
    obtain ⟨late, found⟩ := ih
    refine ⟨by omega, ?_⟩
    rw [listings, List.getElem?_append_right (by omega), Nat.sub_sub]
    exact found

/-- The parts of a sketch stand one behind the other after it. -/
theorem parts (stands : Stands sketches first s i) :
    List.Forall₂ (fun id t => Stands sketches first t id.index) (numbers (i + 1) s.parts)
      s.parts := by
  have side : ∀ (first : Nat) (parts : List Sketch),
      List.Forall₂ (fun id t => Stands parts first t id.index) (numbers first parts) parts := by
    intro first parts
    induction parts generalizing first with
    | nil => exact .nil
    | cons s rest ih =>
      exact .cons .here ((ih (first + s.listing.length)).imp fun _ _ stands => stands.later)
  induction stands with
  | @here s rest first => exact (side (first + 1) s.parts).imp fun _ _ stands => stands.part
  | part _ ih => exact ih.imp fun _ _ stands => stands.part
  | later _ ih => exact ih.imp fun _ _ stands => stands.later

end Stands

mutual

/-- Every number in the range of sketches is that of one of them. -/
theorem exists_stands_node {first i : Nat} (late : first ≤ i) :
    (s : Sketch) → (rest : List Sketch) → i < first + s.listing.length →
      ∃ t, Stands (s :: rest) first t i
  | .node role kind origin parts, rest, early => by
    rcases Nat.eq_or_lt_of_le late with rfl | later
    · exact ⟨_, .here⟩
    · rw [length_listing, Sketch.parts] at early
      obtain ⟨t, stands⟩ := exists_stands later parts (by omega)
      exact ⟨t, .part stands⟩

theorem exists_stands {first i : Nat} (late : first ≤ i) :
    (sketches : List Sketch) → i < first + (listings sketches).length →
      ∃ t, Stands sketches first t i
  | [], early => absurd early (Nat.not_lt.mpr late)
  | s :: rest, early => by
    rw [listings, List.length_append] at early
    by_cases inside : i < first + s.listing.length
    · exact exists_stands_node late s rest inside
    · obtain ⟨t, stands⟩ := exists_stands (Nat.not_lt.mp inside) rest (by omega)
      exact ⟨t, .later stands⟩

end

/-! ### What stands there -/

/-- The node below which sketches are planted is tied to them. -/
theorem get?_plantAll_self (present : p.has a) (fresh : ∀ s ∈ sketches, s.Fresh) :
    (plantAll a p sketches).get? a = (p.get? a).map (tieAll p.size · sketches) := by
  induction sketches generalizing p with
  | nil =>
    have same : (tieAll p.size · []) = id := rfl
    rw [plantAll, same, Option.map_id, id]
  | cons s rest ih =>
    obtain ⟨role, kind, origin, parts⟩ := s
    obtain ⟨here, later⟩ := List.forall_mem_cons.mp fresh
    obtain ⟨bare, below⟩ := here
    have there : p.has (role.attach a).parent := by rwa [Role.parent_attach]
    have old : a ≠ p.nextId := by
      rintro rfl
      exact Nat.lt_irrefl _ (Program.has_iff.mp present)
    -- the parts go below the new node and leave the old one as it is
    have first : (plant a p (.node role kind origin parts)).get? a =
        (p.get? a).map (role.tie p.nextId) := by
      rw [plant, get?_plantAll_of_ne ((role.attach a).has_new _ _ _) below
        ((role.attach a).has_append _ _ _ present) old, Attach.get?_append _ _ _ there, if_neg old,
        Role.parent_attach, if_pos rfl]
      cases role <;> rfl
    rw [plantAll, ih (has_plant present) later, first, Option.map_map, size_plant]
    rfl

/-- A sketch becomes the node at its number, tied to its parts. -/
theorem Stands.get? {s : Sketch} {i : Nat} (stands : Stands sketches p.size s i)
    (present : p.has a) (fresh : ∀ s ∈ sketches, s.Fresh) :
    ∃ parent, (plantAll a p sketches).get? ⟨i⟩ = some (s.entry parent (i + 1)) := by
  generalize start : p.size = first at stands
  induction stands generalizing a p with
  | @here s rest first =>
    obtain ⟨role, kind, origin, parts⟩ := s
    subst start
    obtain ⟨⟨bare, below⟩, later⟩ := List.forall_mem_cons.mp fresh
    have there : p.has (role.attach a).parent := by rwa [Role.parent_attach]
    have new : p.nextId ≠ a := by
      rintro rfl
      exact Nat.lt_irrefl _ (Program.has_iff.mp present)
    refine ⟨(role.attach a).parent, ?_⟩
    rw [plantAll]
    refine (get?_plantAll_of_ne (has_plant present) later (has_nextId_plant _) new).trans ?_
    rw [plant, get?_plantAll_self ((role.attach a).has_new _ _ _) below,
      Attach.get?_append _ _ _ there, if_pos rfl, Attach.size_append]
    rfl
  | @part s t rest first i inside ih =>
    obtain ⟨role, kind, origin, parts⟩ := s
    subst start
    obtain ⟨⟨bare, below⟩, later⟩ := List.forall_mem_cons.mp fresh
    obtain ⟨late, found⟩ := inside.getElem?_listings
    obtain ⟨short, -⟩ := List.getElem?_eq_some_iff.mp found
    obtain ⟨parent, read⟩ := ih ((role.attach a).has_new kind origin.extent.span p) below
      (Attach.size_append _ _ _ _)
    refine ⟨parent, ?_⟩
    have early : (plant a p (.node role kind origin parts)).has ⟨i⟩ := by
      rw [Program.has_iff, size_plant, length_listing]
      simp only [Sketch.parts] at late short ⊢
      omega
    have other : (⟨i⟩ : NodeId) ≠ a := by
      rintro rfl
      exact absurd (Program.has_iff.mp present) (Nat.not_lt.mpr (Nat.le_of_succ_le late))
    rw [plantAll, get?_plantAll_of_ne (has_plant present) later early other, plant]
    exact read
  | @later s t rest first i _ ih =>
    obtain ⟨here, later⟩ := List.forall_mem_cons.mp fresh
    rw [plantAll]
    exact ih (has_plant present) later (by rw [size_plant, start])

end Sketch

end Java

end JavaCallGraph
