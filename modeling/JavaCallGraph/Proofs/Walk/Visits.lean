import JavaCallGraph.Proofs.Walk.Exploration

/-!
The visits of a walk whose course does not depend on the visitor's state.

When the answers of a visitor are those of a fixed rule, the visits of a walk can be listed
beforehand, and the walk is the visitor acting on that list. The scopes in which a node is visited
obey a local law, `scopesAt_child`: they are the scopes opened at its parent, in order, less those
that pass over it. Everything about how often and by whom a node is met follows by climbing.
-/

namespace JavaCallGraph.Walk

variable {σ : Type} {p : Program}

/-- How a walk goes on below a node. -/
abbrev Rule := NodeId → Scope → Descend

/-- Whenever the visitor does not fail, it answers by the rule. -/
def Follows (visit : Visitor σ) (rule : Rule) : Prop :=
  ∀ state node scope descend, (visit state node scope).2 = .ok descend → descend = rule node scope

/-- Visit a node in a scope and forget the answer. -/
def attend (visit : Visitor σ) (place : NodeId × Scope) (state : σ) : σ × Except Error Unit :=
  match visit state place.1 place.2 with
  | (state, .error e) => (state, .error e)
  | (state, .ok _) => (state, .ok ())

/-- The visits below a node, itself included, to a depth of `depth` nodes. -/
def visitsBelow (p : Program) (rule : Rule) : (depth : Nat) → Scope → NodeId → List (NodeId × Scope)
  | 0, _, _ => []
  | depth + 1, scope, node =>
    if scope.passesOver p node then []
    else
      (node, scope) :: (scope.openings p node (rule node scope)).flatMap fun inner =>
        (p.children node).flatMap (visitsBelow p rule depth inner)

/-- The visits of a walk over some roots. -/
def visits (p : Program) (rule : Rule) (roots : List NodeId) : List (NodeId × Scope) :=
  roots.flatMap (visitsBelow p rule (p.size + 1) {})

theorem explore_eq {visit : Visitor σ} {rule : Rule} (follows : Follows visit rule) (depth : Nat)
    (scope : Scope) (node : NodeId) (state : σ) :
    explore p visit depth scope node state =
      inTurn (attend visit) (visitsBelow p rule depth scope node) state := by
  induction depth generalizing scope node state with
  | zero => rfl
  | succ depth ih =>
    rw [explore, visitsBelow]
    split
    · rfl
    · rw [inTurn, attend]
      cases answer : visit state node scope with
      | mk state' result =>
        cases result with
        | error e => rfl
        | ok descend =>
          rw [follows state node scope descend (by rw [answer]), andThen_ok, inTurn_flatMap]
          refine congrFun (inTurn_congr fun inner _ => ?_) state'
          funext state
          rw [inTurn_flatMap]
          refine congrFun (inTurn_congr fun c _ => ?_) state
          funext state
          exact ih inner c state

/-- A walk by a rule is the visitor acting on the listed visits in turn. -/
theorem walk_eq_visits (forest : p.Forest) {visit : Visitor σ} {rule : Rule}
    (follows : Follows visit rule) {roots : List NodeId} (present : ∀ r ∈ roots, p.has r)
    (state : σ) :
    walk p visit state roots = inTurn (attend visit) (visits p rule roots) state := by
  rw [walk_eq forest visit present, visits, inTurn_flatMap]
  refine congrFun (inTurn_congr fun r _ => ?_) state
  funext state
  exact explore_eq follows _ _ _ _

/-! ### What holds at every visit -/

/-- What passes from a visited node to its children in the scopes it opens holds at every visit
below it. -/
theorem visitsBelow_forall {rule : Rule} {motive : NodeId → Scope → Prop}
    (step : ∀ node scope, motive node scope →
      ∀ inner ∈ scope.openings p node (rule node scope), ∀ c ∈ p.children node, motive c inner)
    {depth : Nat} {scope : Scope} {node : NodeId} (start : motive node scope) :
    ∀ place ∈ visitsBelow p rule depth scope node, motive place.1 place.2 := by
  induction depth generalizing scope node with
  | zero => simp [visitsBelow]
  | succ depth ih =>
    intro place member
    rw [visitsBelow] at member
    split at member
    · cases member
    · rw [List.mem_cons, List.mem_flatMap] at member
      rcases member with rfl | ⟨inner, opened, member⟩
      · exact start
      · obtain ⟨c, child, member⟩ := List.mem_flatMap.mp member
        exact ih (step node scope start inner opened c child) place member

theorem visits_forall {rule : Rule} {motive : NodeId → Scope → Prop}
    (step : ∀ node scope, motive node scope →
      ∀ inner ∈ scope.openings p node (rule node scope), ∀ c ∈ p.children node, motive c inner)
    {roots : List NodeId} (start : ∀ r ∈ roots, motive r {}) :
    ∀ place ∈ visits p rule roots, motive place.1 place.2 := by
  intro place member
  obtain ⟨r, root, below⟩ := List.mem_flatMap.mp member
  exact visitsBelow_forall step (start r root) place below

theorem has_of_visited (forest : p.Forest) {rule : Rule} {roots : List NodeId}
    (present : ∀ r ∈ roots, p.has r) : ∀ place ∈ visits p rule roots, p.has place.1 := by
  refine visits_forall (motive := fun n _ => p.has n) ?_ present
  intro node scope _ inner _ c child
  exact Program.has_of_parent? (forest.mem_children.mp child)

/-- Only nodes of the subtree are visited. -/
theorem mem_descendants_of_visited (forest : p.Forest) {rule : Rule} {depth : Nat} {scope : Scope}
    {root : NodeId} {place : NodeId × Scope}
    (member : place ∈ visitsBelow p rule depth scope root) :
    place.1 = root ∨ root ∈ p.ancestors place.1 := by
  refine visitsBelow_forall (motive := fun n _ => n = root ∨ root ∈ p.ancestors n) ?_ (.inl rfl)
    place member
  intro n _ line _ _ c child
  rw [forest.ancestors_child (forest.mem_children.mp child), List.mem_cons]
  exact .inr (line.imp_left Eq.symm)

/-! ### The scopes of a node -/

/-- The scopes in which a node is visited, in order. -/
def scopesAt (places : List (NodeId × Scope)) (n : NodeId) : List Scope :=
  (places.filter (·.1 = n)).map (·.2)

theorem scopesAt_cons (place : NodeId × Scope) (places : List (NodeId × Scope)) (n : NodeId) :
    scopesAt (place :: places) n =
      if place.1 = n then place.2 :: scopesAt places n else scopesAt places n := by
  rw [scopesAt, scopesAt, List.filter_cons]
  by_cases same : place.1 = n <;> simp [same]

theorem scopesAt_flatMap {α : Type} (parts : α → List (NodeId × Scope)) (whole : List α)
    (n : NodeId) :
    scopesAt (whole.flatMap parts) n = whole.flatMap fun a => scopesAt (parts a) n := by
  simp only [scopesAt, List.filter_flatMap, List.map_flatMap]

theorem mem_scopesAt {places : List (NodeId × Scope)} {n : NodeId} {scope : Scope} :
    scope ∈ scopesAt places n ↔ (n, scope) ∈ places := by
  simp [scopesAt]

/-- A list in which one element alone contributes. -/
theorem flatMap_eq_of_single {α β : Type} {whole : List α} {parts : α → List β} {a : α}
    (distinct : whole.Nodup) (member : a ∈ whole) (others : ∀ b ∈ whole, b ≠ a → parts b = []) :
    whole.flatMap parts = parts a := by
  induction whole with
  | nil => cases member
  | cons b rest ih =>
    rw [List.flatMap_cons]
    obtain ⟨fresh, distinctRest⟩ := List.nodup_cons.mp distinct
    by_cases same : b = a
    · subst same
      have silent : rest.flatMap parts = [] := by
        rw [List.flatMap_eq_nil_iff]
        intro c later
        exact others c (by simp [later]) fun eq => fresh (eq ▸ later)
      rw [silent, List.append_nil]
    · have later : a ∈ rest := (List.mem_cons.mp member).resolve_left (Ne.symm same)
      rw [others b (by simp) same, List.nil_append]
      exact ih distinctRest later fun c memberRest => others c (by simp [memberRest])

theorem scopesAt_eq_nil (forest : p.Forest) {rule : Rule} {depth : Nat} {scope : Scope}
    {root n : NodeId} (apart : n ≠ root) (outside : root ∉ p.ancestors n) :
    scopesAt (visitsBelow p rule depth scope root) n = [] := by
  rw [List.eq_nil_iff_forall_not_mem]
  intro inner member
  rcases mem_descendants_of_visited forest (mem_scopesAt.mp member) with same | above
  · exact apart same
  · exact outside above

/-- The root of a subtree is visited once, in the scope the walk starts in. -/
theorem scopesAt_root (forest : p.Forest) {rule : Rule} {depth : Nat} {scope : Scope}
    {root : NodeId} :
    scopesAt (visitsBelow p rule (depth + 1) scope root) root =
      if scope.passesOver p root then [] else [scope] := by
  rw [visitsBelow]
  split
  · rfl
  · rw [scopesAt_cons, if_pos rfl, scopesAt_flatMap, List.cons.injEq]
    refine ⟨rfl, List.flatMap_eq_nil_iff.mpr fun inner _ => ?_⟩
    rw [scopesAt_flatMap, List.flatMap_eq_nil_iff]
    intro c child
    have younger := (forest.child_lt child).1
    refine scopesAt_eq_nil forest ?_ fun above => ?_
    · rintro rfl
      omega
    · have := forest.lt_of_mem_ancestors above
      omega

/-- The scopes opened at a node for one of its children. -/
def opened (p : Program) (rule : Rule) (places : List (NodeId × Scope)) (q n : NodeId) :
    List Scope :=
  ((scopesAt places q).flatMap fun scope => scope.openings p q (rule q scope)).filter
    (!·.passesOver p n)

theorem opened_flatMap {α : Type} (rule : Rule) (parts : α → List (NodeId × Scope))
    (whole : List α) (q n : NodeId) :
    opened p rule (whole.flatMap parts) q n =
      whole.flatMap fun a => opened p rule (parts a) q n := by
  simp only [opened, scopesAt_flatMap, List.flatMap_assoc, List.filter_flatMap]

theorem scopesAt_below_child (forest : p.Forest) {rule : Rule} {depth : Nat} {scope : Scope}
    {root n q : NodeId} (above : p.parent? n = some q) (apart : n ≠ root)
    (deep : p.size - root.index < depth) :
    scopesAt (visitsBelow p rule depth scope root) n =
      opened p rule (visitsBelow p rule depth scope root) q n := by
  induction depth generalizing scope root with
  | zero => omega
  | succ depth ih =>
    have older := forest.parent_lt above
    have listed := forest.mem_children.mpr above
    by_cases top : root = q
    · subst top
      rw [opened, scopesAt_root forest, visitsBelow]
      split
      · rfl
      · -- at the parent itself, each opened scope is one visit of the child, unless passed over
        rw [scopesAt_cons, if_neg (Ne.symm apart), scopesAt_flatMap, List.flatMap_singleton,
          ← List.filterMap_eq_filter, List.filterMap_eq_flatMap_toList]
        refine List.flatMap_congr fun inner _ => ?_
        rw [scopesAt_flatMap, flatMap_eq_of_single (forest.children_nodup root) listed]
        · have younger := forest.child_lt listed
          obtain ⟨depth, rfl⟩ : ∃ k, depth = k + 1 := ⟨depth - 1, by omega⟩
          rw [scopesAt_root forest]
          cases passed : inner.passesOver p n <;> simp [Option.guard, passed]
        · intro c child other
          have younger := (forest.child_lt child).1
          refine scopesAt_eq_nil forest (Ne.symm other) fun higher => ?_
          rw [forest.ancestors_child above, List.mem_cons] at higher
          rcases higher with rfl | higher
          · omega
          · have := forest.lt_of_mem_ancestors higher
            omega
    · rw [visitsBelow]
      split
      · rfl
      · rw [scopesAt_cons, if_neg (Ne.symm apart), scopesAt_flatMap, opened, scopesAt_cons,
          if_neg top, ← opened, opened_flatMap]
        refine List.flatMap_congr fun inner _ => ?_
        rw [scopesAt_flatMap, opened_flatMap]
        refine List.flatMap_congr fun c child => ?_
        have younger := forest.child_lt child
        refine ih ?_ (by omega)
        rintro rfl
        rw [forest.mem_children.mp child, Option.some.injEq] at above
        exact top above

/-- A node that is no root of the walk is visited in the scopes opened at its parent, less those
that pass over it. -/
theorem scopesAt_child (forest : p.Forest) {rule : Rule} {roots : List NodeId} {n q : NodeId}
    (above : p.parent? n = some q) (inner : n ∉ roots) :
    scopesAt (visits p rule roots) n = opened p rule (visits p rule roots) q n := by
  rw [visits, scopesAt_flatMap, opened_flatMap]
  refine List.flatMap_congr fun r root => ?_
  refine scopesAt_below_child forest above ?_ (by omega)
  rintro rfl
  exact inner root

/-- A root of the program that is walked once is visited once, in the empty scope. -/
theorem scopesAt_walkRoot (forest : p.Forest) {rule : Rule} {roots : List NodeId} {r : NodeId}
    (distinct : roots.Nodup) (member : r ∈ roots) (root : p.parent? r = none) :
    scopesAt (visits p rule roots) r = [{}] := by
  rw [visits, scopesAt_flatMap, flatMap_eq_of_single distinct member, scopesAt_root forest]
  · rfl
  · intro s _ other
    refine scopesAt_eq_nil forest (Ne.symm other) ?_
    simp [Program.Forest.ancestors_root root]

end JavaCallGraph.Walk
