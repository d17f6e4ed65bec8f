import JavaCallGraph.CallGraph.Reach
import Mathlib

/-!
Declarations by their distance from a start.

Around a start the declarations lie in rings, one for each distance. A ring is what the links of the
ring before it lead to and no earlier ring holds, each declaration by the first of these links.
`rings` lists one ring after the other, without a queue and without a limit on their size.
-/

namespace JavaCallGraph.CallGraph.Reach

/-- The near end of an edge. -/
def nearEnd (direction : Direction) (link : Link) : NodeId :=
  match direction with
  | .callers => link.target
  | .callees => link.source

/-- The links by which a walk goes on from a declaration. -/
def linksAt (g : CallGraph) (direction : Direction) (d : NodeId) : List Link :=
  g.links.filter (nearEnd direction · == d)

theorem mem_linksAt {g : CallGraph} {direction : Direction} {d : NodeId} {l : Link} :
    l ∈ linksAt g direction d ↔ l ∈ g.links ∧ nearEnd direction l = d := by
  simp [linksAt]

/-! ### Paths -/

/-- The ways along the links of a graph, by their length. -/
inductive Path (g : CallGraph) (direction : Direction) (start : NodeId) : Nat → NodeId → Prop where
  | start : Path g direction start 0 start
  | step {k : Nat} {l : Link} : Path g direction start k (nearEnd direction l) → l ∈ g.links →
      Path g direction start (k + 1) (farEnd direction l)

/-- The length of the shortest path. -/
def Distance (g : CallGraph) (direction : Direction) (start : NodeId) (k : Nat) (d : NodeId) :
    Prop :=
  Path g direction start k d ∧ ∀ j, Path g direction start j d → k ≤ j

/-- A path of at most the given length leads to a declaration. -/
def Within (g : CallGraph) (direction : Direction) (start : NodeId) (k : Nat) (d : NodeId) : Prop :=
  ∃ j ≤ k, Path g direction start j d

variable {g : CallGraph} {direction : Direction} {start d : NodeId} {k : Nat}

theorem Distance.unique {j : Nat} (first : Distance g direction start j d)
    (second : Distance g direction start k d) : j = k :=
  Nat.le_antisymm (first.2 k second.1) (second.2 j first.1)

theorem distance_zero : Distance g direction start 0 d ↔ d = start := by
  constructor
  · rintro ⟨path, -⟩
    cases path
    rfl
  · rintro rfl
    exact ⟨.start, fun _ _ => Nat.zero_le _⟩

theorem distance_succ :
    Distance g direction start (k + 1) d ↔ ¬Within g direction start k d ∧
      ∃ l ∈ g.links,
        Distance g direction start k (nearEnd direction l) ∧ farEnd direction l = d := by
  constructor
  · rintro ⟨path, shortest⟩
    refine ⟨fun ⟨j, near, path'⟩ => absurd (shortest j path') (by omega), ?_⟩
    cases path with
    | @step _ l path' linked =>
      -- A shorter path to the near end would go on to a shorter path to `d`.
      refine ⟨l, linked, ⟨path', fun j shorter => ?_⟩, rfl⟩
      have longer := shortest (j + 1) (.step shorter linked)
      omega
  · rintro ⟨far, l, linked, ⟨path, -⟩, rfl⟩
    refine ⟨.step path linked, fun j path' => ?_⟩
    by_contra nearer
    exact far ⟨j, by omega, path'⟩

theorem within_zero : Within g direction start 0 d ↔ d = start := by
  rw [← distance_zero]
  constructor
  · rintro ⟨j, le, path⟩
    obtain rfl : j = 0 := by omega
    exact ⟨path, fun _ _ => Nat.zero_le _⟩
  · exact fun ⟨path, _⟩ => ⟨0, Nat.le_refl 0, path⟩

theorem within_succ :
    Within g direction start (k + 1) d ↔
      Within g direction start k d ∨ Distance g direction start (k + 1) d := by
  constructor
  · rintro ⟨j, le, path⟩
    by_cases near : Within g direction start k d
    · exact .inl near
    · have shortest : ∀ i, Path g direction start i d → k + 1 ≤ i := by
        intro i path'
        by_contra nearer
        exact near ⟨i, by omega, path'⟩
      obtain rfl : j = k + 1 := Nat.le_antisymm le (shortest j path)
      exact .inr ⟨path, shortest⟩
  · rintro (⟨j, le, path⟩ | ⟨path, -⟩)
    · exact ⟨j, by omega, path⟩
    · exact ⟨k + 1, Nat.le_refl _, path⟩

/-! ### One ring -/

/-- What some links lead to and is not known yet, each declaration by the first link to it. -/
def discover (direction : Direction) (depth : Nat) : (known : List NodeId) → List Link → List Visit
  | _, [] => []
  | known, l :: rest =>
    if farEnd direction l ∈ known then discover direction depth known rest
    else
      { declaration := farEnd direction l, depth, via := l.edge.call } ::
        discover direction depth (known ++ [farEnd direction l]) rest

variable {depth : Nat} {known : List NodeId} {links : List Link}

theorem discover_append (first second : List Link) :
    discover direction depth known (first ++ second) =
      discover direction depth known first ++
        discover direction depth
          (known ++ (discover direction depth known first).map (·.declaration)) second := by
  fun_induction discover direction depth known first with
  | case1 known => simp
  | case2 known l rest seen ih => rw [List.cons_append, discover, if_pos seen, ih]
  | case3 known l rest new ih =>
    rw [List.cons_append, discover, if_neg new, ih]
    simp

theorem mem_discover :
    d ∈ (discover direction depth known links).map (·.declaration) ↔
      d ∉ known ∧ ∃ l ∈ links, farEnd direction l = d := by
  fun_induction discover direction depth known links with
  | case1 known => simp
  | case2 known l rest seen ih => grind
  | case3 known l rest new ih => grind

theorem discover_spec {e : Visit} (member : e ∈ discover direction depth known links) :
    e.depth = depth ∧ ∃ l ∈ links, l.edge.call = e.via ∧ farEnd direction l = e.declaration := by
  fun_induction discover direction depth known links with
  | case1 known => cases member
  | case2 known l rest seen ih => grind
  | case3 known l rest new ih => grind

theorem discover_nodup (nodup : known.Nodup) :
    (known ++ (discover direction depth known links).map (·.declaration)).Nodup := by
  fun_induction discover direction depth known links with
  | case1 known => simpa using nodup
  | case2 known l rest seen ih => exact ih nodup
  | case3 known l rest new ih =>
    have longer : (known ++ [farEnd direction l]).Nodup :=
      List.concat_eq_append ▸ nodup.concat new
    simpa using ih longer

/-! ### Ring after ring -/

/-- The next rings after a frontier at a depth, as many as given. -/
def rings (g : CallGraph) (direction : Direction) :
    (levels depth : Nat) → (frontier known : List NodeId) → List Visit
  | 0, _, _, _ => []
  | levels + 1, depth, frontier, known =>
    let ring := discover direction (depth + 1) known (frontier.flatMap (linksAt g direction))
    ring ++ rings g direction levels (depth + 1) (ring.map (·.declaration))
      (known ++ ring.map (·.declaration))

/-- The frontier is the ring at a depth, and all within that depth is known. -/
structure Rim (g : CallGraph) (direction : Direction) (start : NodeId) (depth : Nat)
    (frontier known : List NodeId) : Prop where
  mem_frontier : ∀ d, d ∈ frontier ↔ Distance g direction start depth d
  mem_known : ∀ d, d ∈ known ↔ Within g direction start depth d
  nodup : known.Nodup

namespace Rim

variable {frontier : List NodeId}

theorem initial (g : CallGraph) (direction : Direction) (start : NodeId) :
    Rim g direction start 0 [start] [start] where
  mem_frontier d := by rw [List.mem_singleton, distance_zero]
  mem_known d := by rw [List.mem_singleton, within_zero]
  nodup := List.nodup_singleton start

variable (rim : Rim g direction start depth frontier known)

include rim

theorem mem_links (l : Link) :
    l ∈ frontier.flatMap (linksAt g direction) ↔
      l ∈ g.links ∧ Distance g direction start depth (nearEnd direction l) := by
  simp only [List.mem_flatMap, mem_linksAt, rim.mem_frontier]
  exact ⟨fun ⟨_, near, linked, same⟩ => ⟨linked, same ▸ near⟩,
    fun ⟨linked, near⟩ => ⟨_, near, linked, rfl⟩⟩

theorem mem_ring (d : NodeId) :
    d ∈ (discover direction (depth + 1) known (frontier.flatMap (linksAt g direction))).map
        (·.declaration) ↔ Distance g direction start (depth + 1) d := by
  simp only [mem_discover, distance_succ, rim.mem_known, rim.mem_links, and_assoc]

theorem next :
    let ring := discover direction (depth + 1) known (frontier.flatMap (linksAt g direction))
    Rim g direction start (depth + 1) (ring.map (·.declaration))
      (known ++ ring.map (·.declaration)) where
  mem_frontier := rim.mem_ring
  mem_known d := by rw [List.mem_append, rim.mem_known, rim.mem_ring, within_succ]
  nodup := discover_nodup rim.nodup

/-- Every visit is at its distance, by a link from one step nearer. -/
theorem rings_spec {levels : Nat} {e : Visit}
    (member : e ∈ rings g direction levels depth frontier known) :
    depth < e.depth ∧ e.depth ≤ depth + levels ∧
      Distance g direction start e.depth e.declaration ∧
      ∃ l ∈ g.links, l.edge.call = e.via ∧ farEnd direction l = e.declaration ∧
        Distance g direction start (e.depth - 1) (nearEnd direction l) := by
  induction levels generalizing depth frontier known with
  | zero => cases member
  | succ levels ih =>
    obtain here | later := List.mem_append.mp member
    · obtain ⟨deep, l, listed, call, far⟩ := discover_spec here
      obtain ⟨linked, near⟩ := (rim.mem_links l).mp listed
      have distance := (rim.mem_ring e.declaration).mp (List.mem_map_of_mem here)
      rw [deep]
      exact ⟨by omega, by omega, distance, l, linked, call, far, near⟩
    · obtain ⟨deeper, bounded, rest⟩ := ih rim.next later
      exact ⟨by omega, by omega, rest⟩

theorem rings_nodup (levels : Nat) :
    (known ++ (rings g direction levels depth frontier known).map (·.declaration)).Nodup := by
  induction levels generalizing depth frontier known with
  | zero => simpa [rings] using rim.nodup
  | succ levels ih =>
    rw [rings, List.map_append, ← List.append_assoc]
    exact ih rim.next

theorem mem_rings (levels : Nat) (d : NodeId) :
    d ∈ known ++ (rings g direction levels depth frontier known).map (·.declaration) ↔
      Within g direction start (depth + levels) d := by
  induction levels generalizing depth frontier known with
  | zero => simpa [rings] using rim.mem_known d
  | succ levels ih =>
    rw [rings, List.map_append, ← List.append_assoc, ih rim.next, Nat.add_right_comm, Nat.add_assoc]

/-- More rings come after fewer, and are farther away. -/
theorem rings_split (levels more : Nat) :
    ∃ later, rings g direction (levels + more) depth frontier known =
        rings g direction levels depth frontier known ++ later ∧
      ∀ e ∈ later, depth + levels < e.depth := by
  induction levels generalizing depth frontier known with
  | zero =>
    refine ⟨rings g direction more depth frontier known, ?_, fun e member => ?_⟩
    · rw [Nat.zero_add, rings, List.nil_append]
    · exact (rim.rings_spec member).1
  | succ levels ih =>
    obtain ⟨later, split, deeper⟩ := ih rim.next
    refine ⟨later, ?_, fun e member => ?_⟩
    · rw [Nat.add_right_comm, rings, split, rings, List.append_assoc]
    · have := deeper e member
      omega

theorem rings_sorted (levels : Nat) :
    (rings g direction levels depth frontier known).Pairwise (·.depth ≤ ·.depth) := by
  induction levels generalizing depth frontier known with
  | zero => exact .nil
  | succ levels ih =>
    rw [rings, List.pairwise_append]
    refine ⟨List.pairwise_of_forall_mem_list fun e here e' here' => ?_, ih rim.next,
      fun e here e' later => ?_⟩
    · rw [(discover_spec here).1, (discover_spec here').1]
    · rw [(discover_spec here).1]
      exact (rim.next.rings_spec later).1.le

/-- A list of rings that is cut off holds as much as it may, and what it lacks is no nearer than
what it holds. -/
theorem nearest_of_take {levels n : Nat} (distance : Distance g direction start k d)
    (listed : d ∈ (rings g direction levels depth frontier known).map (·.declaration))
    (omitted : d ∉ ((rings g direction levels depth frontier known).take n).map (·.declaration)) :
    ((rings g direction levels depth frontier known).take n).length = n ∧
      ∀ e ∈ (rings g direction levels depth frontier known).take n, e.depth ≤ k := by
  obtain ⟨visit, member, rfl⟩ := List.mem_map.mp listed
  obtain ⟨-, -, here, -⟩ := rim.rings_spec member
  obtain rfl := distance.unique here
  have sorted := rim.rings_sorted levels
  rw [← List.take_append_drop n (rings g direction levels depth frontier known)] at member sorted
  have later := (List.mem_append.mp member).resolve_left fun early =>
    omitted (List.mem_map_of_mem early)
  constructor
  · have nonempty := List.length_pos_of_mem later
    rw [List.length_drop] at nonempty
    exact List.length_take_of_le (by omega)
  · intro e early
    exact (List.pairwise_append.mp sorted).2.2 e early visit later

end Rim

/-- The rings hold all within their depth but the start. -/
theorem encard_within (g : CallGraph) (direction : Direction) (start : NodeId) (levels : Nat) :
    {d | Within g direction start levels d}.encard =
      (rings g direction levels 0 [start] [start]).length + 1 := by
  have rim := Rim.initial g direction start
  let listed := [start] ++ (rings g direction levels 0 [start] [start]).map (·.declaration)
  have same : {d | Within g direction start levels d} = listed.toFinset := by
    ext d
    rw [Finset.mem_coe, List.mem_toFinset, rim.mem_rings levels d, Nat.zero_add]
    rfl
  rw [same, Set.encard_coe_eq_coe_finsetCard, List.toFinset_card_of_nodup (rim.rings_nodup levels)]
  simp

end JavaCallGraph.CallGraph.Reach
