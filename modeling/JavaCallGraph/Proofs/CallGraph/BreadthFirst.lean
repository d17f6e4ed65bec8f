import JavaCallGraph.Proofs.CallGraph.Adjacency
import JavaCallGraph.Proofs.CallGraph.Rings
import Mathlib

/-!
The walk as a list of rings.

While the queue serves one ring, the next one gathers behind it. So a walk lists the rings around
its start one after the other, down to its depth, and the cap cuts that list off. What is known of
the rings then holds of the walk, and walks of different depths differ in the number of rings alone.
-/

namespace JavaCallGraph.CallGraph.Reach

variable {p : Program} {g : CallGraph} {direction : Direction} {start : NodeId}
variable {depth maxDepth cap : Nat} {known : List NodeId}

theorem edgesAt_eq {d : NodeId} {v : Vertex} (found : g.vertex p d = .ok v) :
    edgesAt g p direction d = .ok (linksAt g direction v.declaration) := by
  cases direction with
  | callers => exact edgesTo_eq found
  | callees => exact edgesFrom_eq found

theorem farEnd_listed (wired : Wired p g) {l : Link} (linked : l ∈ g.links) :
    farEnd direction l ∈ g.vertices.map (·.declaration) := by
  cases direction with
  | callers => exact wired.source l linked
  | callees => exact wired.target l linked

/-! ### The cap -/

/-- A state that takes up some visits. -/
def State.extend (s : State) (visits : List Visit) : State where
  visited := s.visited ++ visits.map (·.declaration)
  entries := s.entries ++ visits
  queue := s.queue ++ visits.map fun e => (e.declaration, e.depth)

@[simp] theorem State.extend_nil (s : State) : s.extend [] = s := by
  simp [extend]

theorem State.extend_append (s : State) (first second : List Visit) :
    s.extend (first ++ second) = (s.extend first).extend second := by
  simp [extend]

/-- All that is visited is listed, but for the start. -/
def State.Tallied (s : State) : Prop := s.visited.length = s.entries.length + 1

theorem State.Tallied.extend {s : State} (tallied : s.Tallied) (visits : List Visit) :
    (s.extend visits).Tallied := by
  simp only [Tallied, State.extend, List.length_append, List.length_map] at *
  omega

theorem visitCap_le (vertices : Nat) :
    Bound.visitCap vertices Bound.maxVisited 200 ≤ Bound.maxEntries :=
  (Nat.min_le_right _ _).trans (by decide)

/-- The limit on entries never binds: the cap on visits is below it. -/
theorem State.Tallied.isFull_iff {s : State} (tallied : s.Tallied) (low : cap ≤ Bound.maxEntries) :
    s.isFull cap ↔ cap ≤ s.visited.length := by
  simp only [isFull, Bool.or_eq_true, decide_eq_true_eq, Tallied] at *
  omega

theorem foldl_follow {s : State} (tallied : s.Tallied) (low : cap ≤ Bound.maxEntries)
    (links : List Link) :
    links.foldl (follow direction cap depth) s =
      s.extend ((discover direction depth s.visited links).take (cap - s.visited.length)) := by
  induction links generalizing s with
  | nil => simp [discover]
  | cons l rest ih =>
    rw [List.foldl_cons, discover, follow]
    by_cases full : cap ≤ s.visited.length
    · have isFull := (tallied.isFull_iff low).mpr full
      have none : cap - s.visited.length = 0 := Nat.sub_eq_zero_of_le full
      simp [isFull, ih tallied, none]
    · have notFull : s.isFull cap = false := by
        rw [← Bool.not_eq_true, tallied.isFull_iff low]
        exact full
      by_cases seen : farEnd direction l ∈ s.visited
      · simp [notFull, seen, ih tallied]
      · let visit : Visit := ⟨farEnd direction l, depth, l.edge.call⟩
        have room : cap - s.visited.length = (cap - (s.extend [visit]).visited.length) + 1 := by
          simp only [State.extend, List.length_append, List.length_map, List.length_singleton]
          omega
        have step := ih (tallied.extend [visit])
        rw [← State.extend_append, List.singleton_append] at step
        rw [if_neg seen, room, List.take_succ_cons]
        simpa [notFull, seen, State.extend, visit] using step

/-! ### The queue without a cap -/

/-- What serving a queue adds to the list when there is no cap. -/
def explore (g : CallGraph) (direction : Direction) (maxDepth : Nat) :
    (steps : Nat) → (queue : List (NodeId × Nat)) → (known : List NodeId) → List Visit
  | 0, _, _ => []
  | _ + 1, [], _ => []
  | steps + 1, (current, depth) :: queue, known =>
    if maxDepth ≤ depth then explore g direction maxDepth steps queue known
    else
      let new := discover direction (depth + 1) known (linksAt g direction current)
      new ++ explore g direction maxDepth steps
        (queue ++ new.map fun e => (e.declaration, e.depth)) (known ++ new.map (·.declaration))

theorem serve_cons (steps : Nat) (s : State) (current : NodeId) (depth : Nat) :
    serve g p direction maxDepth cap (steps + 1) { s with queue := (current, depth) :: s.queue } =
      if s.isFull cap then .ok s.entries
      else if maxDepth ≤ depth then serve g p direction maxDepth cap steps s
      else edgesAt g p direction current >>= fun links =>
        serve g p direction maxDepth cap steps (links.foldl (follow direction cap (depth + 1)) s) :=
  rfl

/-- A list cut off in the middle of its first part does not depend on what would come after. -/
theorem take_append_after (n : Nat) (new : List Visit) (after : List Visit → List Visit) :
    new.take n ++ (after (new.take n)).take (n - (new.take n).length) =
      (new ++ after new).take n := by
  obtain all | cut := Nat.le_total new.length n
  · rw [List.take_of_length_le all, List.take_append, List.take_of_length_le all]
  · rw [List.length_take_of_le cut, Nat.sub_self, List.take_zero, List.append_nil,
      List.take_append_of_le_length cut]

/-- The cap cuts the list off, and changes nothing before. -/
theorem serve_eq (wired : Wired p g) (low : cap ≤ Bound.maxEntries) (steps : Nat) {s : State}
    (tallied : s.Tallied) (queued : ∀ q ∈ s.queue, q.1 ∈ g.vertices.map (·.declaration)) :
    serve g p direction maxDepth cap steps s =
      .ok (s.entries ++
        (explore g direction maxDepth steps s.queue s.visited).take (cap - s.visited.length)) := by
  induction steps generalizing s with
  | zero => simp [serve, explore]
  | succ steps ih =>
    obtain ⟨visited, entries, _ | ⟨⟨current, depth⟩, queue⟩⟩ := s
    · simp [serve, explore]
    obtain ⟨listed, behind⟩ := List.forall_mem_cons.mp queued
    replace tallied : State.Tallied ⟨visited, entries, queue⟩ := tallied
    rw [serve_cons steps ⟨visited, entries, queue⟩, explore]
    by_cases full : cap ≤ visited.length
    · rw [if_pos ((tallied.isFull_iff low).mpr full), Nat.sub_eq_zero_of_le full, List.take_zero,
        List.append_nil]
    rw [if_neg fun isFull => full ((tallied.isFull_iff low).mp isFull)]
    by_cases deep : maxDepth ≤ depth
    · rw [if_pos deep, if_pos deep]
      exact ih tallied behind
    obtain ⟨v, found, rfl⟩ := wired.vertex_of_listed listed
    let new := discover direction (depth + 1) visited (linksAt g direction v.declaration)
    -- If the cap cuts `new` off, the queue gets less than in `explore`, but then nothing is taken
    -- from it any more.
    let taken := new.take (cap - visited.length)
    have linked : ∀ q ∈ (State.extend ⟨visited, entries, queue⟩ taken).queue,
        q.1 ∈ g.vertices.map (·.declaration) := by
      refine List.forall_mem_append.mpr ⟨behind, List.forall_mem_map.mpr fun e member => ?_⟩
      obtain ⟨-, l, leaves, -, far⟩ := discover_spec (List.mem_of_mem_take member)
      exact far ▸ farEnd_listed wired (mem_linksAt.mp leaves).1
    rw [if_neg deep, if_neg deep, edgesAt_eq found]
    calc
      serve g p direction maxDepth cap steps
          ((linksAt g direction v.declaration).foldl (follow direction cap (depth + 1))
            ⟨visited, entries, queue⟩)
        = serve g p direction maxDepth cap steps
            (State.extend ⟨visited, entries, queue⟩ taken) := by
          rw [foldl_follow tallied low]
      _ = .ok (entries ++ (taken ++ (explore g direction maxDepth steps
            (queue ++ taken.map fun e => (e.declaration, e.depth))
            (visited ++ taken.map (·.declaration))).take
              (cap - visited.length - taken.length))) := by
          rw [ih (tallied.extend taken) linked]
          simp [State.extend, Nat.sub_sub]
      _ = _ := by
          rw [take_append_after (cap - visited.length) new fun new =>
            explore g direction maxDepth steps (queue ++ new.map fun e => (e.declaration, e.depth))
              (visited ++ new.map (·.declaration))]

/-! ### Ring by ring -/

theorem explore_of_deep (steps : Nat) {queue : List (NodeId × Nat)}
    (deep : ∀ q ∈ queue, maxDepth ≤ q.2) : explore g direction maxDepth steps queue known = [] := by
  induction steps generalizing queue with
  | zero => rfl
  | succ steps ih =>
    cases queue with
    | nil => rfl
    | cons head queue =>
      obtain ⟨here, deep⟩ := List.forall_mem_cons.mp deep
      rw [explore, if_pos here, ih deep]

/-- Serving what is left of a ring lists what its links discover, and queues it behind what has
gathered so far. -/
theorem explore_ring (within : depth < maxDepth) (steps : Nat) (left : List NodeId)
    (gathered : List (NodeId × Nat)) :
    let ring := discover direction (depth + 1) known (left.flatMap (linksAt g direction))
    explore g direction maxDepth (left.length + steps) (left.map (·, depth) ++ gathered) known =
      ring ++ explore g direction maxDepth steps
        (gathered ++ ring.map fun e => (e.declaration, e.depth))
        (known ++ ring.map (·.declaration)) := by
  induction left generalizing gathered known with
  | nil => simp [discover]
  | cons d left ih =>
    have more : (d :: left).length + steps = left.length + steps + 1 := by
      rw [List.length_cons]
      omega
    simp only [more, List.map_cons, List.cons_append, explore, if_neg (Nat.not_le.mpr within),
      List.append_assoc, ih, List.flatMap_cons, discover_append, List.map_append]

theorem explore_eq_rings (levels steps : Nat) {frontier : List NodeId}
    (enough : frontier.length + (rings g direction levels depth frontier known).length ≤ steps) :
    explore g direction (depth + levels) steps (frontier.map (·, depth)) known =
      rings g direction levels depth frontier known := by
  induction levels generalizing depth steps frontier known with
  | zero =>
    refine explore_of_deep steps fun q queued => ?_
    obtain ⟨d, -, rfl⟩ := List.mem_map.mp queued
    exact Nat.le_refl depth
  | succ levels ih =>
    let ring := discover direction (depth + 1) known (frontier.flatMap (linksAt g direction))
    have queued : ring.map (fun e => (e.declaration, e.depth)) =
        (ring.map (·.declaration)).map (·, depth + 1) := by
      rw [List.map_map]
      refine List.map_congr_left fun e member => ?_
      rw [(discover_spec member).1]
      rfl
    obtain ⟨rest, rfl⟩ := Nat.exists_eq_add_of_le (Nat.le_of_add_right_le enough)
    have enough : (ring.map (·.declaration)).length + (rings g direction levels (depth + 1)
        (ring.map (·.declaration)) (known ++ ring.map (·.declaration))).length ≤ rest := by
      rw [rings, List.length_append] at enough
      rw [List.length_map]
      exact Nat.le_of_add_le_add_left enough
    have served : explore g direction (depth + (levels + 1)) (frontier.length + rest)
        (frontier.map (·, depth)) known = ring ++ explore g direction (depth + (levels + 1)) rest
          (ring.map fun e => (e.declaration, e.depth)) (known ++ ring.map (·.declaration)) := by
      simpa only [List.append_nil, List.nil_append] using explore_ring (by omega) rest frontier []
    rw [served, queued, ← Nat.add_assoc, Nat.add_right_comm, ih rest enough, rings]

/-- A declaration with a vertex is in one ring at most, so the visits and the start are no more than
the vertices. -/
theorem rings_length_lt (wired : Wired p g) (listed : start ∈ g.vertices.map (·.declaration))
    (direction : Direction) (levels : Nat) :
    (rings g direction levels 0 [start] [start]).length < g.vertices.length := by
  have rim := Rim.initial g direction start
  have vertices : start :: (rings g direction levels 0 [start] [start]).map (·.declaration) ⊆
      g.vertices.map (·.declaration) := by
    refine List.cons_subset.mpr ⟨listed, fun d member => ?_⟩
    obtain ⟨e, visited, rfl⟩ := List.mem_map.mp member
    obtain ⟨-, -, -, l, linked, -, far, -⟩ := rim.rings_spec visited
    exact far ▸ farEnd_listed wired linked
  simpa using ((rim.rings_nodup levels).subperm vertices).length_le

end Reach

open Reach

variable {p : Program} {s : Basis} {g : CallGraph} {start : NodeId} {v : Vertex}

/-- A walk lists the rings around the vertex of its start, up to the cap, which counts the start. -/
theorem walkFrom_eq (wired : Wired p g) (found : g.vertex p start = .ok v) (direction : Direction)
    (maxDepth : Nat) :
    g.walkFrom p start direction maxDepth =
      .ok ((rings g direction (Bound.clampDepth maxDepth Bound.maxDepth) 0 [v.declaration]
        [v.declaration]).take (Bound.visitCap g.vertices.length Bound.maxVisited 200 - 1)) := by
  let limit := Bound.clampDepth maxDepth Bound.maxDepth
  have listed : v.declaration ∈ g.vertices.map (·.declaration) := wired.listed_of_vertex found
  have enough := rings_length_lt wired listed direction limit
  have explored : explore g direction (0 + limit) (g.vertices.length + 2)
      ([v.declaration].map (·, 0)) [v.declaration] =
        rings g direction limit 0 [v.declaration] [v.declaration] :=
    explore_eq_rings limit _ (by rw [List.length_singleton]; omega)
  rw [Nat.zero_add] at explored
  have tallied : State.Tallied { visited := [v.declaration], queue := [(v.declaration, 0)] } := rfl
  rw [walkFrom, found]
  refine (serve_eq wired (visitCap_le _) _ tallied (List.forall_mem_singleton.mpr listed)).trans ?_
  rw [← explored]
  rfl

/-- After any builds, a walk from a declaration with a vertex lists declarations at their distance
from it, each once and the nearest first, by the call of a link from one step nearer. The start, and
what is farther than the depth, is not listed. The cap counts the start. If no more than the cap lies
within the depth, all of it is listed; where something is left out, the list is as long as the cap
allows and holds nothing farther. -/
theorem walk_lists_nearest (reached : Reached s g) (found : g.vertex s.program start = .ok v)
    (direction : Direction) (maxDepth : Nat) :
    let limit := Bound.clampDepth maxDepth Bound.maxDepth
    let cap := Bound.visitCap g.vertices.length Bound.maxVisited 200
    ∃ entries, g.walkFrom s.program start direction maxDepth = .ok entries ∧
      (∀ e ∈ entries,
        e.declaration ≠ v.declaration ∧ 1 ≤ e.depth ∧ e.depth ≤ limit ∧
          Distance g direction v.declaration e.depth e.declaration ∧
          ∃ l ∈ g.links, l.edge.call = e.via ∧ farEnd direction l = e.declaration ∧
            Distance g direction v.declaration (e.depth - 1) (nearEnd direction l)) ∧
      (entries.map (·.declaration)).Nodup ∧
      entries.Pairwise (·.depth ≤ ·.depth) ∧
      entries.length ≤ cap - 1 ∧
      ({d | Within g direction v.declaration limit d}.encard ≤ cap →
        ∀ d, Within g direction v.declaration limit d → d ≠ v.declaration →
          d ∈ entries.map (·.declaration)) ∧
      ∀ k d, Distance g direction v.declaration k d → k ≤ limit → d ≠ v.declaration →
        d ∉ entries.map (·.declaration) →
          entries.length = cap - 1 ∧ ∀ e ∈ entries, e.depth ≤ k := by
  intro limit cap
  have rim := Rim.initial g direction v.declaration
  let visits := rings g direction limit 0 [v.declaration] [v.declaration]
  have early : (visits.take (cap - 1)).Sublist visits := List.take_sublist _ _
  have distinct : (v.declaration :: visits.map (·.declaration)).Nodup := rim.rings_nodup limit
  obtain ⟨apart, nodup⟩ := List.nodup_cons.mp distinct
  have listed : ∀ d, Within g direction v.declaration limit d → d ≠ v.declaration →
      d ∈ visits.map (·.declaration) := by
    intro d within other
    rw [← Nat.zero_add limit] at within
    exact (List.mem_cons.mp ((rim.mem_rings limit d).mpr within)).resolve_left other
  have walked := walkFrom_eq ((wired_lasting s).reached reached) found direction maxDepth
  refine ⟨visits.take (cap - 1), walked, fun e member => ?_, nodup.sublist (early.map _),
    (rim.rings_sorted limit).sublist early, List.length_take_le _ _, fun few d within other => ?_,
    fun k d distance near other omitted => ?_⟩
  · obtain ⟨deep, bounded, distance, via⟩ := rim.rings_spec (early.subset member)
    refine ⟨fun same => apart ?_, deep, by omega, distance, via⟩
    exact same ▸ List.mem_map_of_mem (early.subset member)
  · have fits : visits.length ≤ cap - 1 := by
      rw [encard_within] at few
      have : visits.length + 1 ≤ cap := by exact_mod_cast few
      omega
    rw [List.take_of_length_le fits]
    exact listed d within other
  · exact rim.nearest_of_take distance (listed d ⟨k, near, distance.1⟩ other) omitted

theorem roundTrip_walk :
    roundTripGraph.walkFrom roundTrip ⟨2⟩ .callees 10 = .ok [⟨⟨3⟩, 1, ⟨6⟩⟩, ⟨⟨4⟩, 2, ⟨10⟩⟩] :=
  rfl

/-- Two calls lead from the first method to the third. The second edge to the second method and the
edges back add nothing. -/
theorem walk_lists_nearest_roundTrip :
    Reached (.reference roundTrip {}) roundTripGraph ∧
      roundTripGraph.vertex roundTrip ⟨2⟩ = .ok ⟨⟨2⟩, .method, "a()", some "K"⟩ ∧
      roundTripGraph.walkFrom roundTrip ⟨2⟩ .callees 10 =
        .ok [⟨⟨3⟩, 1, ⟨6⟩⟩, ⟨⟨4⟩, 2, ⟨10⟩⟩] ∧
      Distance roundTripGraph .callees ⟨2⟩ 1 ⟨3⟩ ∧ Distance roundTripGraph .callees ⟨2⟩ 2 ⟨4⟩ := by
  have found : roundTripGraph.vertex roundTrip ⟨2⟩ = .ok ⟨⟨2⟩, .method, "a()", some "K"⟩ := rfl
  obtain ⟨entries, walked, spec, -⟩ := walk_lists_nearest roundTrip_reached found .callees 10
  obtain rfl := Except.ok.inj (roundTrip_walk.symm.trans walked)
  exact ⟨roundTrip_reached, found, walked, (spec _ (.head _)).2.2.2.1,
    (spec _ (.tail _ (.head _))).2.2.2.1⟩

theorem clampDepth_mono {a b : Nat} (le : a ≤ b) (maximum : Nat) :
    Bound.clampDepth a maximum ≤ Bound.clampDepth b maximum :=
  min_le_min_right _ (max_le_max_right _ le)

/-- After any builds, a deeper walk goes on where a shallower one from the same start ends, whether
or not the cap cuts one of them off. The shallower walk is what the deeper one lists first, and all
that it lists up to the smaller depth. Without a vertex for the start both fail alike. -/
theorem deeper_walk_extends (reached : Reached s g) (start : NodeId) (direction : Direction)
    {a b : Nat} (le : a ≤ b) :
    (∃ shallow deep, g.walkFrom s.program start direction a = .ok shallow ∧
      g.walkFrom s.program start direction b = .ok deep ∧
      shallow <+: deep ∧
      shallow = deep.filter (·.depth ≤ Bound.clampDepth a Bound.maxDepth)) ∨
    ∃ error, g.vertex s.program start = .error error ∧
      g.walkFrom s.program start direction a = .error error ∧
      g.walkFrom s.program start direction b = .error error := by
  cases found : g.vertex s.program start with
  | error error =>
    refine .inr ⟨error, rfl, ?_, ?_⟩ <;> rw [walkFrom, found] <;> rfl
  | ok v =>
    have wired := (wired_lasting s).reached reached
    have rim := Rim.initial g direction v.declaration
    obtain ⟨more, deeper⟩ := Nat.exists_eq_add_of_le (clampDepth_mono le Bound.maxDepth)
    obtain ⟨later, split, farther⟩ :=
      rim.rings_split (Bound.clampDepth a Bound.maxDepth) more
    refine .inl ⟨_, _, walkFrom_eq wired found direction a, walkFrom_eq wired found direction b,
      ?_, ?_⟩
    · rw [deeper, split, List.take_append]
      exact List.prefix_append _ _
    · rw [deeper, split, List.take_append, List.filter_append, List.filter_eq_self.mpr,
        List.filter_eq_nil_iff.mpr, List.append_nil]
      · intro e member
        have := farther e (List.mem_of_mem_take member)
        simp only [decide_eq_true_eq]
        omega
      · intro e member
        have := (rim.rings_spec (List.mem_of_mem_take member)).2.1
        simp only [decide_eq_true_eq]
        omega

/-- With depth one the walk ends at the second method. -/
theorem deeper_walk_extends_roundTrip :
    Reached (.reference roundTrip {}) roundTripGraph ∧ 1 ≤ 10 ∧
      roundTripGraph.walkFrom roundTrip ⟨2⟩ .callees 1 = .ok [⟨⟨3⟩, 1, ⟨6⟩⟩] ∧
      roundTripGraph.walkFrom roundTrip ⟨2⟩ .callees 10 =
        .ok [⟨⟨3⟩, 1, ⟨6⟩⟩, ⟨⟨4⟩, 2, ⟨10⟩⟩] ∧
      [(⟨⟨3⟩, 1, ⟨6⟩⟩ : Visit)] <+: [⟨⟨3⟩, 1, ⟨6⟩⟩, ⟨⟨4⟩, 2, ⟨10⟩⟩] := by
  have short : roundTripGraph.walkFrom roundTrip ⟨2⟩ .callees 1 = .ok [⟨⟨3⟩, 1, ⟨6⟩⟩] := rfl
  refine ⟨roundTrip_reached, by decide, short, roundTrip_walk, ?_⟩
  obtain ⟨shallow, deep, first, second, initial, -⟩ | ⟨error, missing, -⟩ :=
    deeper_walk_extends roundTrip_reached ⟨2⟩ .callees (show 1 ≤ 10 by decide)
  · obtain rfl := Except.ok.inj (short.symm.trans first)
    obtain rfl := Except.ok.inj (roundTrip_walk.symm.trans second)
    exact initial
  · cases missing

end JavaCallGraph.CallGraph
