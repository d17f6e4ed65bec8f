import JavaCallGraph.Proofs.CallGraph.Retrying

/-!
Builds of one program for different units.

More units bring more vertices, and another order brings other representatives of the same
declarations. `entryOf` says what a call site adds as a function of the vertices alone. A link that
can be made with some vertices can be made with more, between the same declarations, so the entries
of two builds can be compared site by site.
-/

namespace JavaCallGraph

/-- Declarations that count as the same. -/
def Program.sameness (p : Program) : Setoid NodeId where
  r a b := p.sameDeclaration a b
  iseqv := ⟨Program.sameDeclaration_refl p, Program.sameDeclaration_symm,
    Program.sameDeclaration_trans⟩

/-- A link between declarations, whichever views of them stand for its ends. The edge has the kind,
the call and the point. -/
abbrev LinkClass (p : Program) := Quotient p.sameness × Quotient p.sameness × Edge

def Link.classIn (p : Program) (link : Link) : LinkClass p :=
  (Quotient.mk p.sameness link.source, Quotient.mk p.sameness link.target, link.edge)

namespace CallGraph

open scoped List

variable {s : Basis} {g g' : CallGraph} {caller call source target : NodeId} {kind : CallKind}
  {scope : Walk.Scope} {units units' : List NodeId}

def linkClasses (p : Program) (g : CallGraph) : Multiset (LinkClass p) :=
  (g.links.map (Link.classIn p) : List (LinkClass p))

/-! ### What a site adds -/

/-- Count a link to a target, or note why there is none. -/
def tally (s : Basis) (g : CallGraph) (caller : NodeId) (kind : CallKind) (call : NodeId)
    (attempt : Attempt) (target : NodeId) : Attempt :=
  match linkOf s g caller target kind call with
  | .ok _ => { attempt with linked := attempt.linked + 1 }
  | .error e => { attempt with failure := some e }

theorem connect_outcome {reached : List NodeId} {attempt : Attempt} {outcome : Outcome}
    (connected : connect s caller kind call reached attempt g = (g', .ok outcome)) :
    outcome = (reached.foldl (tally s g caller kind call) attempt).outcome := by
  induction reached generalizing attempt g with
  | nil =>
    cases connected
    rfl
  | cons target rest ih =>
    rw [connect, addEdge_eq] at connected
    rw [List.foldl_cons, tally]
    cases made : linkOf s g caller target kind call with
    | ok link =>
      simp only [made, Except.map] at connected
      -- the new link does not touch the vertices, so the later ones are tallied as in `g`
      exact ih (g := g.addLink link) connected
    | error e =>
      simp only [made, Except.map] at connected
      split at connected
      · exact ih connected
      · cases connected

/-- What a site inside a callable adds if it does not end the build. -/
def entryIn (s : Basis) (g : CallGraph) (caller call : NodeId) (kind : CallKind)
    (scope : Walk.Scope) : Entry :=
  match targets s call kind scope with
  | .ok (.targets reached) =>
    { report :=
        { call, kind, caller := some caller
          outcome := (reached.foldl (tally s g caller kind call) {}).outcome }
      links := linksTo s g caller kind call reached }
  | .ok .noTargets =>
    { report := { call, kind, caller := some caller, outcome := .noTargets }, links := [] }
  | .error e =>
    { report := { call, kind, caller := some caller, outcome := .unresolved e.message }, links := [] }

def entryOf (s : Basis) (g : CallGraph) (call : NodeId) (kind : CallKind) (scope : Walk.Scope) :
    Entry :=
  match scope.currentCallable? with
  | some caller => entryIn s g caller call kind scope
  | none => { report := { call, kind, caller := none, outcome := .typeLevel }, links := [] }

theorem linkTargets_entry {outcome : Outcome}
    (linked : linkTargets s g caller call kind scope = (g', .ok outcome)) :
    g'.addReport { call, kind, caller := some caller, outcome } =
      g.addEntry (entryIn s g caller call kind scope) := by
  unfold linkTargets at linked
  unfold entryIn
  cases result : targets s call kind scope with
  | ok found =>
    rw [result] at linked
    cases found with
    | targets reached =>
      dsimp only at linked ⊢
      rw [connect_outcome linked, (connect_ok linked).1]
      rfl
    | noTargets =>
      dsimp only at linked
      split at linked
      · cases linked
        simp [addEntry, addReport]
      · cases linked
  | error e =>
    rw [result] at linked
    dsimp only at linked
    split at linked
    · cases linked
      simp [addEntry, addReport]
    · cases linked

theorem linkCall_entry (linked : linkCall s g call kind scope = (g', .ok ())) :
    g' = g.addEntry (entryOf s g call kind scope) := by
  unfold linkCall at linked
  unfold entryOf
  split at linked
  · next caller inside =>
    rw [inside]
    split at linked
    · next h outcome attempted =>
      cases linked
      exact linkTargets_entry attempted
    · cases linked
  · next outside _ =>
    cases linked
    rw [outside]
    simp [addEntry, addReport]
  · cases linked

def entriesAt (s : Basis) (g : CallGraph) (place : NodeId × Walk.Scope) : List Entry :=
  match s.program.callKind? place.1 with
  | some kind => [entryOf s g place.1 kind place.2]
  | none => []

theorem inTurn_entries {places : List (NodeId × Walk.Scope)}
    (present : ∀ place ∈ places, s.program.has place.1)
    (walked : Walk.inTurn (Walk.attend (linker s)) places g = (g', .ok ())) :
    g' = g.addEntries (places.flatMap (entriesAt s g)) := by
  induction places generalizing g with
  | nil =>
    cases walked
    exact (addEntries_nil _).symm
  | cons place rest ih =>
    obtain ⟨node, scope⟩ := place
    have presentRest : ∀ place ∈ rest, s.program.has place.1 := fun place member =>
      present place (List.mem_cons_of_mem _ member)
    rw [List.flatMap_cons, entriesAt]
    cases callKind : s.program.callKind? node with
    | none =>
      have presentHere : s.program.has node := present (node, scope) List.mem_cons_self
      rw [Walk.inTurn, attend_linker_other presentHere callKind, Walk.andThen_ok] at walked
      exact ih presentRest walked
    | some kind =>
      rw [Walk.inTurn, attend_linker_call callKind] at walked
      cases linked : linkCall s g node kind scope with
      | mk after result =>
        rw [linked] at walked
        cases result with
        | error e => cases walked
        | ok _ =>
          obtain rfl := linkCall_entry linked
          -- the entry leaves the vertices alone, so the later entries are those of `g`
          rw [List.singleton_append, addEntries_cons]
          exact ih presentRest walked

/-- What a successful build leaves in a fresh graph, site by site. -/
theorem build_entries (forest : s.program.Forest) (built : build s empty units = (g, .ok ())) :
    let vertices := addVertices s.program empty units
    g.links = (sites s units).flatMap (fun place => (entriesAt s vertices place).flatMap (·.links)) ∧
      g.reports =
        (sites s units).flatMap fun place => (entriesAt s vertices place).map (·.report) := by
  intro vertices
  have present := present_of_build_ok (g := empty) rfl built
  have visited : ∀ place ∈ sites s units, s.program.has place.1 :=
    Walk.has_of_visited forest present
  obtain ⟨reports, links, -, -⟩ := addVertices_frame s.program empty units
  rw [build_eq forest rfl present] at built
  split at built
  · next after walked =>
    obtain rfl := inTurn_entries visited walked
    cases built
    rw [← List.flatMap_assoc, ← List.map_flatMap]
    refine ⟨?_, ?_⟩
    · show (addVertices s.program empty units).links ++ _ = _
      rw [links]
      rfl
    · show (addVertices s.program empty units).reports ++ _ = _
      rw [reports]
      rfl
  · cases built

/-! ### Two graphs of one program -/

/-- Every declaration with a vertex in the first graph has one in the second. -/
def Covered (p : Program) (g g' : CallGraph) : Prop :=
  ∀ d, (g.vertex? p d).isSome → (g'.vertex? p d).isSome

theorem covered_addVertices (forest : s.program.Forest) (included : units ⊆ units') :
    Covered s.program (addVertices s.program empty units)
      (addVertices s.program empty units') := by
  intro d found
  have enrolled := (enrolled_empty s.program).addVertices units
  have enrolled' := (enrolled_empty s.program).addVertices units'
  rw [enrolled.vertex?_isSome, List.nil_append] at found
  rw [enrolled'.vertex?_isSome, List.nil_append]
  obtain ⟨c, listed, same⟩ := found
  obtain ⟨u, unit, below, callable⟩ := forest.mem_callablesUnder.mp listed
  exact ⟨c, forest.mem_callablesUnder.mpr ⟨u, included unit, below, callable⟩, same⟩

section

variable (sound : Sound s.program g) (sound' : Sound s.program g')

include sound sound'

theorem vertex?_class {d : NodeId} {v v' : Vertex} (found : g.vertex? s.program d = some v)
    (found' : g'.vertex? s.program d = some v') :
    Quotient.mk s.program.sameness v.declaration =
      Quotient.mk s.program.sameness v'.declaration := by
  obtain ⟨-, same, -⟩ := vertex?_spec sound found
  obtain ⟨-, same', -⟩ := vertex?_spec sound' found'
  apply Quotient.sound
  exact Program.sameDeclaration_trans same (Program.sameDeclaration_symm same')

theorem linkOf_covered (covered : Covered s.program g g') {link : Link}
    (made : linkOf s g source target kind call = .ok link) :
    ∃ link', linkOf s g' source target kind call = .ok link' ∧
      link.classIn s.program = link'.classIn s.program := by
  obtain ⟨point, edge, tail, head, located, anchored, leaves, enters, rfl⟩ := linkOf_eq_ok.mp made
  obtain ⟨tail', leaves'⟩ : ∃ v, g'.vertex? s.program source = some v :=
    Option.isSome_iff_exists.mp (covered source (by simp [leaves]))
  obtain ⟨head', enters'⟩ : ∃ v, g'.vertex? s.program target = some v :=
    Option.isSome_iff_exists.mp (covered target (by simp [enters]))
  refine ⟨_, linkOf_eq_ok.mpr ⟨point, edge, tail', head', located, anchored, leaves', enters', rfl⟩,
    ?_⟩
  rw [Link.classIn, Link.classIn, vertex?_class sound sound' leaves leaves',
    vertex?_class sound sound' enters enters']

theorem linksTo_covered (covered : Covered s.program g g') (caller : NodeId) (kind : CallKind)
    (call : NodeId) (reached : List NodeId) :
    (linksTo s g caller kind call reached).map (Link.classIn s.program) <+
      (linksTo s g' caller kind call reached).map (Link.classIn s.program) := by
  induction reached with
  | nil => exact .slnil
  | cons target rest ih =>
    cases made : linkOf s g caller target kind call with
    | ok link =>
      obtain ⟨link', made', same⟩ := linkOf_covered sound sound' covered made
      rw [linksTo_cons_ok made, linksTo_cons_ok made', List.map_cons, List.map_cons, same]
      exact ih.cons_cons _
    | error e =>
      rw [linksTo_cons_error made]
      cases made' : linkOf s g' caller target kind call with
      | ok link' =>
        rw [linksTo_cons_ok made']
        exact ih.cons _
      | error e' =>
        rw [linksTo_cons_error made']
        exact ih

theorem entriesAt_covered (covered : Covered s.program g g') (place : NodeId × Walk.Scope) :
    ((entriesAt s g place).flatMap (·.links)).map (Link.classIn s.program) <+
      ((entriesAt s g' place).flatMap (·.links)).map (Link.classIn s.program) := by
  unfold entriesAt
  cases s.program.callKind? place.1 with
  | none => exact .slnil
  | some kind =>
    simp only [List.flatMap_singleton, entryOf]
    cases place.2.currentCallable? with
    | none => exact .slnil
    | some caller =>
      simp only [entryIn]
      cases targets s place.1 kind place.2 with
      | error e => exact .slnil
      | ok result =>
        cases result with
        | noTargets => exact .slnil
        | targets reached => exact linksTo_covered sound sound' covered _ _ _ _

end

/-! ### Reports -/

/-- A failed look-up names what was looked for and nothing of the graph. -/
theorem vertex_blind {p : Program} (covered : Covered p g g') (covered' : Covered p g' g)
    (d : NodeId) : (g.vertex p d).map (fun _ => ()) = (g'.vertex p d).map fun _ => () := by
  have even : (g.vertex? p d).isSome = (g'.vertex? p d).isSome :=
    Bool.eq_iff_iff.mpr ⟨covered d, covered' d⟩
  unfold vertex
  cases found : g.vertex? p d <;> cases found' : g'.vertex? p d
  · rfl
  · simp [found, found'] at even
  · simp [found, found'] at even
  · rfl

theorem bind_blind {α β : Type} {first first' : Except Error α} {next next' : α → Except Error β}
    (even : first.map (fun _ => ()) = first'.map fun _ => ())
    (later : ∀ a a', (next a).map (fun _ => ()) = (next' a').map fun _ => ()) :
    (first >>= next).map (fun _ => ()) = (first' >>= next').map fun _ => () := by
  cases first <;> cases first' <;> cases even
  · rfl
  · exact later _ _

theorem ends_blind (covered : Covered s.program g g') (covered' : Covered s.program g' g)
    (source target : NodeId) (edge : Edge) :
    (ends s g source target edge).map (fun _ => ()) =
      (ends s g' source target edge).map fun _ => () := by
  apply bind_blind (vertex_blind covered covered' source)
  intro _ _
  apply bind_blind (vertex_blind covered covered' target)
  intro _ _
  rfl

theorem linkOf_blind (covered : Covered s.program g g') (covered' : Covered s.program g' g)
    (source target : NodeId) (kind : CallKind) (call : NodeId) :
    (linkOf s g source target kind call).map (fun _ => ()) =
      (linkOf s g' source target kind call).map fun _ => () := by
  rw [linkOf_eq_ends, linkOf_eq_ends]
  cases s.facts.containingPoint source call with
  | error e => rfl
  | ok point =>
    simp only [bind, Except.bind]
    cases Edge.of s.program kind call point with
    | error e => rfl
    | ok edge => exact ends_blind covered covered' source target edge

theorem reportsAt_eq (covered : Covered s.program g g') (covered' : Covered s.program g' g)
    (place : NodeId × Walk.Scope) :
    (entriesAt s g place).map (·.report) = (entriesAt s g' place).map (·.report) := by
  have tallies : ∀ caller kind call, tally s g caller kind call = tally s g' caller kind call := by
    intro caller kind call
    funext attempt target
    have same := linkOf_blind covered covered' caller target kind call
    unfold tally
    cases made : linkOf s g caller target kind call <;>
      cases made' : linkOf s g' caller target kind call <;> simp_all [Except.map]
  unfold entriesAt
  cases s.program.callKind? place.1 with
  | none => rfl
  | some kind =>
    simp only [List.map_cons, List.map_nil, entryOf]
    cases place.2.currentCallable? with
    | none => rfl
    | some caller =>
      simp only [entryIn]
      cases targets s place.1 kind place.2 with
      | error e => rfl
      | ok result =>
        cases result with
        | noTargets => rfl
        | targets reached => rw [tallies]

/-! ### Whole builds -/

theorem sites_subperm (included : units <+~ units') : sites s units <+~ sites s units' := by
  obtain ⟨chosen, same, part⟩ := included
  exact ⟨sites s chosen, same.flatMap_right _, part.flatMap _⟩

theorem linkClasses_le (forest : s.program.Forest) (included : units <+~ units')
    (built : build s empty units = (g, .ok ())) (built' : build s empty units' = (g', .ok ())) :
    g.linkClasses s.program ≤ g'.linkClasses s.program := by
  obtain ⟨links, -⟩ := build_entries forest built
  obtain ⟨links', -⟩ := build_entries forest built'
  have sound := (sound_empty s.program).addVertices units
  have sound' := (sound_empty s.program).addVertices units'
  have covered := covered_addVertices (s := s) forest included.subset
  rw [linkClasses, linkClasses, Multiset.coe_le, links, links', List.map_flatMap, List.map_flatMap]
  have larger := List.Sublist.flatMap_right (sites s units) fun place _ =>
    entriesAt_covered sound sound' covered place
  apply larger.subperm.trans
  obtain ⟨chosen, same, part⟩ := sites_subperm (s := s) included
  exact ⟨_, same.flatMap_right _, part.flatMap _⟩

theorem build_ok_of_subset (forest : s.program.Forest) (included : units ⊆ units')
    (built' : build s empty units' = (g', .ok ())) : ∃ g, build s empty units = (g, .ok ()) := by
  have present' := present_of_build_ok (g := empty) rfl built'
  have present : ∀ u ∈ units, s.program.has u := fun u unit => present' u (included unit)
  have succeeded : (build s empty units').2 = .ok () := by rw [built']
  rw [build_eq_ok forest rfl present' empty] at succeeded
  refine ⟨_, Prod.ext rfl ?_⟩
  rw [build_eq_ok forest rfl present empty]
  intro place visited
  obtain ⟨u, unit, below⟩ := List.mem_flatMap.mp visited
  exact succeeded place (List.mem_flatMap.mpr ⟨u, included unit, below⟩)

/-- If a program can be built for some units, it can be built for some of these in any order. The
links are among those of all the units, each as often at most, taken between declarations and with
their calls and points. For the same units in another order, they are the same links and the reports
are the same too, however the views that stand for the declarations differ. -/
theorem build_for_fewer_units (grown : s.program.Grown) (distinct : units.Nodup)
    (included : units ⊆ units') (built' : build s empty units' = (g', .ok ())) :
    ∃ g, build s empty units = (g, .ok ()) ∧
      g.linkClasses s.program ≤ g'.linkClasses s.program ∧
      (units.Perm units' →
        g.linkClasses s.program = g'.linkClasses s.program ∧
          (g.reports : Multiset Report) = g'.reports) := by
  have forest := grown.forest
  obtain ⟨g, built⟩ := build_ok_of_subset forest included built'
  refine ⟨g, built, linkClasses_le forest (distinct.subperm included) built built', fun perm => ?_⟩
  refine ⟨le_antisymm (linkClasses_le forest perm.subperm built built')
    (linkClasses_le forest perm.symm.subperm built' built), ?_⟩
  obtain ⟨-, reports⟩ := build_entries forest built
  obtain ⟨-, reports'⟩ := build_entries forest built'
  have covered := covered_addVertices (s := s) forest perm.subset
  have covered' := covered_addVertices (s := s) forest perm.symm.subset
  rw [reports, reports', Multiset.coe_eq_coe]
  simp only [reportsAt_eq covered covered']
  exact (perm.flatMap_right _).flatMap_right _

/-- The two views of a file in either order. The one that comes first stands for the method. -/
def viewedFrom (first : NodeId) : CallGraph where
  vertices := [⟨first, .method, "m()", some "A"⟩]
  bySignature := ⟨[("m()", [⟨first, .method, "m()", some "A"⟩])]⟩
  links := [⟨first, first, { kind := .methodCall, call := ⟨4⟩, point := ⟨0, ⟨2⟩, ⟨3⟩⟩ }⟩]
  reports := [⟨⟨4⟩, .methodCall, some ⟨2⟩, .linked 1⟩]
  built := true

theorem interrupted_viewed :
    build (.reference interrupted {}) empty [⟨0⟩, ⟨7⟩] = (viewedFrom ⟨2⟩, .ok ()) ∧
      build (.reference interrupted {}) empty [⟨7⟩, ⟨0⟩] = (viewedFrom ⟨9⟩, .ok ()) := by
  rw [build_eq interrupted_grown.forest rfl (by decide),
    build_eq interrupted_grown.forest rfl (by decide)]
  constructor
  · cbv
  · cbv

/-- The links differ with the order of the views, and not between declarations. -/
theorem build_for_fewer_units_viewed :
    [(⟨7⟩ : NodeId), ⟨0⟩].Nodup ∧ [(⟨7⟩ : NodeId), ⟨0⟩] ⊆ [⟨0⟩, ⟨7⟩] ∧
      build (.reference interrupted {}) empty [⟨0⟩, ⟨7⟩] = (viewedFrom ⟨2⟩, .ok ()) ∧
      build (.reference interrupted {}) empty [⟨7⟩, ⟨0⟩] = (viewedFrom ⟨9⟩, .ok ()) ∧
      (viewedFrom ⟨9⟩).links ≠ (viewedFrom ⟨2⟩).links ∧
      (viewedFrom ⟨9⟩).linkClasses interrupted = (viewedFrom ⟨2⟩).linkClasses interrupted := by
  obtain ⟨built', built⟩ := interrupted_viewed
  have distinct : [(⟨7⟩ : NodeId), ⟨0⟩].Nodup := by decide
  have included : [(⟨7⟩ : NodeId), ⟨0⟩] ⊆ [⟨0⟩, ⟨7⟩] := by simp
  obtain ⟨g, made, -, same⟩ := build_for_fewer_units interrupted_grown distinct included built'
  rw [built] at made
  cases made
  exact ⟨distinct, included, built', built, by decide, (same (List.Perm.swap _ _ _)).1⟩

end CallGraph

end JavaCallGraph
