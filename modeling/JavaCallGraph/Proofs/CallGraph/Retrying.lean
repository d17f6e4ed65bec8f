import JavaCallGraph.Proofs.CallGraph.Accounting

/-!
Building again after a build that failed.

Whether a build succeeds does not depend on what the graph held before, since a look-up of a vertex
never ends one. A failed build keeps what it added and leaves the graph open, so the next build adds
all of its own entries to those that are there. The outcome is that of a fresh graph only if the
failed build left no link, no report and no vertex out of place.
-/

namespace JavaCallGraph

/-! ### Whether a build succeeds -/

theorem Walk.inTurn_verdict {α σ : Type} {act : α → σ → σ × Except Error Unit} {whole : List α}
    (even : ∀ a ∈ whole, ∀ state state', (act a state).2 = (act a state').2) (state state' : σ) :
    (inTurn act whole state).2 = (inTurn act whole state').2 := by
  induction whole generalizing state state' with
  | nil => rfl
  | cons a rest ih =>
    have first := even a List.mem_cons_self state state'
    have later := ih fun b member => even b (List.mem_cons_of_mem a member)
    rw [inTurn, inTurn]
    cases here : act a state with
    | mk next result =>
      cases there : act a state' with
      | mk next' result' =>
        rw [here, there] at first
        cases first
        cases result with
        | ok _ => exact later next next'
        | error e => rfl

theorem Walk.inTurn_eq_ok {α σ : Type} {act : α → σ → σ × Except Error Unit} {whole : List α}
    (even : ∀ a ∈ whole, ∀ state state', (act a state).2 = (act a state').2) (state : σ) :
    (inTurn act whole state).2 = .ok () ↔ ∀ a ∈ whole, (act a state).2 = .ok () := by
  induction whole with
  | nil => simp [inTurn]
  | cons a rest ih =>
    have later : ∀ b ∈ rest, ∀ state state', (act b state).2 = (act b state').2 :=
      fun b member => even b (List.mem_cons_of_mem a member)
    rw [List.forall_mem_cons, inTurn, ← ih later]
    cases here : act a state with
    | mk next result =>
      cases result with
      | error e => simp [andThen_error]
      | ok _ =>
        -- the rest is done in another state, which does not matter to how it ends
        rw [andThen_ok, inTurn_verdict later next state]
        simp

theorem Walk.mem_of_inTurn_error {α σ : Type} {act : α → σ → σ × Except Error Unit}
    {whole : List α} (even : ∀ a ∈ whole, ∀ state state', (act a state).2 = (act a state').2)
    {state : σ} {e : Error} (failed : (inTurn act whole state).2 = .error e) :
    ∃ a ∈ whole, (act a state).2 = .error e := by
  induction whole with
  | nil => cases failed
  | cons a rest ih =>
    have later : ∀ b ∈ rest, ∀ state state', (act b state).2 = (act b state').2 :=
      fun b member => even b (List.mem_cons_of_mem a member)
    rw [inTurn] at failed
    cases here : act a state with
    | mk next result =>
      rw [here] at failed
      cases result with
      | error e' => exact ⟨a, List.mem_cons_self, by rw [here]; exact failed⟩
      | ok _ =>
        rw [andThen_ok, inTurn_verdict later next state] at failed
        obtain ⟨b, member, culprit⟩ := ih later failed
        exact ⟨b, List.mem_cons_of_mem a member, culprit⟩

namespace CallGraph

variable {s : Basis} {g g' : CallGraph} {caller call : NodeId} {kind : CallKind}
  {scope : Walk.Scope} {units : List NodeId}

theorem connect_cons (caller : NodeId) (kind : CallKind) (call target : NodeId)
    (rest : List NodeId) (attempt : Attempt) (g : CallGraph) :
    ∃ attempt' g', connect s caller kind call (target :: rest) attempt g =
      match fatal? (linkOf s g caller target kind call) with
      | some e => (g, .error e)
      | none => connect s caller kind call rest attempt' g' := by
  rw [connect, addEdge_eq]
  cases linkOf s g caller target kind call with
  | ok link => exact ⟨_, _, rfl⟩
  | error e =>
    by_cases recoverable : e.isRecoverable
    · exact ⟨_, _, by simp only [Except.map, fatal?, if_pos recoverable]; rfl⟩
    · exact ⟨attempt, g, by simp only [Except.map, fatal?, if_neg recoverable]⟩

theorem connect_verdict (targets : List NodeId) (attempt attempt' : Attempt) (g g' : CallGraph) :
    (connect s caller kind call targets attempt g).2.map (fun _ => ()) =
      (connect s caller kind call targets attempt' g').2.map fun _ => () := by
  -- the two runs go on with other graphs and counts, so the induction is for any of them
  induction targets generalizing attempt attempt' g g' with
  | nil => rfl
  | cons target rest ih =>
    obtain ⟨next, after, here⟩ := connect_cons (s := s) caller kind call target rest attempt g
    obtain ⟨next', after', there⟩ := connect_cons (s := s) caller kind call target rest attempt' g'
    rw [here, there, fatal?_linkOf g g' caller target target]
    cases fatal? (linkOf s g' caller target kind call) with
    | none => exact ih next next' after after'
    | some e => rfl

theorem linkTargets_verdict (g g' : CallGraph) :
    (linkTargets s g caller call kind scope).2.map (fun _ => ()) =
      (linkTargets s g' caller call kind scope).2.map fun _ => () := by
  unfold linkTargets
  split
  · exact connect_verdict _ _ _ g g'
  · split <;> rfl
  · split <;> rfl

theorem linkCall_inside (inside : scope.currentCallable? = some caller) (g : CallGraph) :
    (linkCall s g call kind scope).2 =
      (linkTargets s g caller call kind scope).2.map fun _ => () := by
  unfold linkCall
  rw [inside]
  cases attempted : linkTargets s g caller call kind scope with
  | mk h result => cases result <;> simp only [attempted] <;> rfl

theorem linkCall_verdict (g g' : CallGraph) :
    (linkCall s g call kind scope).2 = (linkCall s g' call kind scope).2 := by
  cases inside : scope.currentCallable? with
  | some caller =>
    rw [linkCall_inside inside, linkCall_inside inside]
    exact linkTargets_verdict g g'
  | none =>
    unfold linkCall
    rw [inside]
    cases scope.currentType? <;> rfl

theorem attend_verdict {place : NodeId × Walk.Scope} (present : s.program.has place.1)
    (g g' : CallGraph) :
    (Walk.attend (linker s) place g).2 = (Walk.attend (linker s) place g').2 := by
  obtain ⟨node, scope⟩ := place
  cases callKind : s.program.callKind? node with
  | none => rw [attend_linker_other present callKind, attend_linker_other present callKind]
  | some kind =>
    rw [attend_linker_call callKind, attend_linker_call callKind]
    exact linkCall_verdict g g'

theorem build_snd (forest : s.program.Forest) (fresh : g.built = false)
    (present : ∀ u ∈ units, s.program.has u) :
    (build s g units).2 = (Walk.inTurn (Walk.attend (linker s)) (sites s units)
      (addVertices s.program g units)).2 := by
  rw [build_eq forest fresh present]
  cases walked : Walk.inTurn (Walk.attend (linker s)) (sites s units)
      (addVertices s.program g units) with
  | mk h result => cases result <;> rfl

/-- A build succeeds exactly if no visited call would end it, whatever graph the calls are tried
on. -/
theorem build_eq_ok (forest : s.program.Forest) (fresh : g.built = false)
    (present : ∀ u ∈ units, s.program.has u) (tried : CallGraph) :
    (build s g units).2 = .ok () ↔
      ∀ place ∈ sites s units, (Walk.attend (linker s) place tried).2 = .ok () := by
  have visited : ∀ place ∈ sites s units, s.program.has place.1 :=
    Walk.has_of_visited forest present
  rw [build_snd forest fresh present,
    Walk.inTurn_eq_ok fun place member => attend_verdict (visited place member)]
  refine forall₂_congr fun place member => ?_
  rw [attend_verdict (visited place member) _ tried]

theorem site_of_build_error (forest : s.program.Forest) (fresh : g.built = false)
    (present : ∀ u ∈ units, s.program.has u) (tried : CallGraph) {e : Error}
    (failed : build s g units = (g', .error e)) :
    ∃ place ∈ sites s units, (Walk.attend (linker s) place tried).2 = .error e := by
  have visited : ∀ place ∈ sites s units, s.program.has place.1 :=
    Walk.has_of_visited forest present
  have ended : (build s g units).2 = .error e := by rw [failed]
  rw [build_snd forest fresh present] at ended
  obtain ⟨place, member, culprit⟩ :=
    Walk.mem_of_inTurn_error (fun place member => attend_verdict (visited place member)) ended
  exact ⟨place, member, attend_verdict (visited place member) _ tried ▸ culprit⟩

theorem build_missing (absent : ¬∀ u ∈ units, s.program.has u) :
    ∃ id, ∀ g : CallGraph, g.built = false → build s g units = (g, .error (.missingNode id)) := by
  have missing : (units.find? (!s.program.has ·)).isSome := by
    simpa [List.find?_isSome] using absent
  obtain ⟨id, found⟩ := Option.isSome_iff_exists.mp missing
  refine ⟨id, fun g fresh => ?_⟩
  simp only [build, fresh, found, Bool.false_eq_true, if_false]

/-- Whether an unfinished graph can be built does not depend on what it holds. -/
theorem build_verdict (forest : s.program.Forest) (fresh : g.built = false)
    (fresh' : g'.built = false) (units : List NodeId) :
    (build s g units).2 = (build s g' units).2 := by
  by_cases present : ∀ u ∈ units, s.program.has u
  · have visited : ∀ place ∈ sites s units, s.program.has place.1 :=
      Walk.has_of_visited forest present
    rw [build_snd forest fresh present, build_snd forest fresh' present]
    apply Walk.inTurn_verdict
    exact fun place member => attend_verdict (visited place member)
  · obtain ⟨id, missing⟩ := build_missing present
    rw [missing g fresh, missing g' fresh']

theorem build_ok_of_build_ok (forest : s.program.Forest) (fresh : g.built = false)
    (fresh' : g'.built = false) {h : CallGraph} (built : build s g units = (h, .ok ())) :
    ∃ h', build s g' units = (h', .ok ()) := by
  have verdict := build_verdict forest fresh fresh' units
  rw [built] at verdict
  exact ⟨_, Prod.ext rfl verdict.symm⟩

theorem present_of_build_ok (fresh : g.built = false) (built : build s g units = (g', .ok ())) :
    ∀ u ∈ units, s.program.has u := by
  by_contra absent
  obtain ⟨id, missing⟩ := build_missing absent
  rw [missing g fresh] at built
  cases built

/-! ### What a later build adds -/

/-- What the reports of some visits say apart from the outcome. -/
def callsAt (s : Basis) (places : List (NodeId × Walk.Scope)) :
    List (NodeId × CallKind × Option NodeId) :=
  places.filterMap fun (node, scope) =>
    (s.program.callKind? node).map fun kind => (node, kind, scope.currentCallable?)

theorem Journal.calls {places : List (NodeId × Walk.Scope)} {entries : List Entry}
    (journal : Journal s g places entries) :
    (entries.map (·.report)).map (fun r => (r.call, r.kind, r.caller)) = callsAt s places := by
  induction journal with
  | nil => rfl
  | pass noCall _ ih => simpa [callsAt, noCall] using ih
  | site isCall records _ ih =>
    simp only [List.map_cons, records.call_eq, records.kind_eq, records.caller_eq, ih]
    simp [callsAt, isCall]

theorem built_of_failed (forest : s.program.Forest) {e : Error}
    (failed : build s g units = (g', .error e)) : g'.built = g.built := by
  have step := build_step forest g units
  rw [failed] at step
  cases step with
  | missing _ => rfl
  | failed _ pass =>
    cases pass with
    | stopped _ _ _ _ =>
      obtain ⟨-, -, built, -⟩ := addVertices_frame s.program g units
      exact built

/-- A graph whose vertices are the first of those that some units ask for takes in these units as an
empty one does. -/
theorem vertices_addVertices_of_prefix {p : Program} {callables : List NodeId}
    (enrolled : Enrolled p callables g)
    (first : g.vertices <+: (addVertices p empty units).vertices) :
    (addVertices p g units).vertices = (addVertices p empty units).vertices ∧
      (addVertices p g units).bySignature = (addVertices p empty units).bySignature := by
  have joined := enrolled.addVertices units
  have fresh := (enrolled_empty p).addVertices units
  have start : g.vertices.map (·.declaration) <+: distinct p [] (p.callablesUnder units) := by
    have declarations := first.map (·.declaration)
    rwa [fresh.declarations, List.nil_append] at declarations
  have vertices : (addVertices p g units).vertices = (addVertices p empty units).vertices := by
    apply joined.sound.vertices_eq fresh.sound
    rw [joined.declarations, fresh.declarations, distinct_append, ← enrolled.declarations,
      List.nil_append]
    exact distinct_of_prefix List.nil_prefix start
  exact ⟨vertices, by rw [joined.index, fresh.index, vertices]⟩

/-- After nothing but vertices in their right place a build does what it does on an empty graph. -/
theorem build_of_prefix (forest : s.program.Forest) {callables : List NodeId}
    (enrolled : Enrolled s.program callables g) (unfinished : g.built = false)
    (noLinks : g.links = []) (noReports : g.reports = [])
    (first : g.vertices <+: (addVertices s.program empty units).vertices)
    (present : ∀ u ∈ units, s.program.has u) : build s g units = build s empty units := by
  have same : addVertices s.program g units = addVertices s.program empty units := by
    obtain ⟨vertices, index⟩ := vertices_addVertices_of_prefix enrolled first
    obtain ⟨reports, links, built, -⟩ := addVertices_frame s.program g units
    obtain ⟨reports', links', built', -⟩ := addVertices_frame s.program empty units
    rw [noReports] at reports
    rw [noLinks] at links
    rw [unfinished] at built
    cases here : addVertices s.program g units
    cases there : addVertices s.program empty units
    simp_all [empty]
  rw [build_eq forest unfinished present, build_eq forest rfl present, same]

theorem Journal.links_length {places : List (NodeId × Walk.Scope)} {entries : List Entry}
    (journal : Journal s g places entries) :
    (entries.flatMap (·.links)).length =
      ((entries.map (·.report)).map (·.outcome.edges)).sum := by
  induction journal with
  | nil => rfl
  | pass _ _ ih => exact ih
  | site _ records _ ih =>
    simp only [List.flatMap_cons, List.length_append, List.map_cons, List.sum_cons, ih,
      records.edges_eq]

/-- Two journals of the same visits leave no room for anything older in front of one of them. -/
theorem Journal.nothing_older {places : List (NodeId × Walk.Scope)} {entries entries' : List Entry}
    (journal : Journal s g places entries) (journal' : Journal s g' places entries')
    {reports : List Report} {links : List Link}
    (sameReports : reports ++ entries.map (·.report) = entries'.map (·.report))
    (sameLinks : links ++ entries.flatMap (·.links) = entries'.flatMap (·.links)) :
    links = [] ∧ reports = [] := by
  have noReports : reports = [] := by
    have visits := congrArg List.length (journal.calls.trans journal'.calls.symm)
    have sizes := congrArg List.length sameReports
    simp only [List.length_append, List.length_map] at sizes visits
    exact List.eq_nil_of_length_eq_zero (by omega)
  have noLinks : links = [] := by
    have sizes := congrArg List.length sameLinks
    rw [noReports, List.nil_append] at sameReports
    rw [List.length_append, journal.links_length, journal'.links_length, sameReports] at sizes
    exact List.eq_nil_of_length_eq_zero (by omega)
  exact ⟨noLinks, noReports⟩

/-- A build after a failed one succeeds where it would on a fresh graph. It reports on the same calls
in the same order and adds what it makes to all that the failed build left. So the outcome is that of
the fresh graph exactly if the failed build left no link and no report, and its vertices are the
first of the fresh graph. -/
theorem retry_adds_to_failed_build (grown : s.program.Grown) {units units' : List NodeId}
    {e : Error} (failed : build s empty units = (g, .error e))
    (retried : build s g units' = (g', .ok ())) :
    ∃ fresh links reports, build s empty units' = (fresh, .ok ()) ∧
      g'.links = g.links ++ links ∧ g'.reports = g.reports ++ reports ∧
      g.vertices <+: g'.vertices ∧
      reports.map (fun r => (r.call, r.kind, r.caller)) =
        fresh.reports.map (fun r => (r.call, r.kind, r.caller)) ∧
      ((g'.vertices = fresh.vertices ∧ g'.links = fresh.links ∧ g'.reports = fresh.reports) ↔
        g.links = [] ∧ g.reports = [] ∧ g.vertices <+: fresh.vertices) := by
  have forest := grown.forest
  have unfinished : g.built = false := built_of_failed forest failed
  obtain ⟨fresh, made⟩ : ∃ fresh, build s empty units' = (fresh, .ok ()) :=
    build_ok_of_build_ok forest unfinished rfl retried
  obtain ⟨entries, journal, reports, links, vertices, -⟩ := build_ok forest unfinished retried
  obtain ⟨entries', journal', reports', links', vertices', -⟩ := build_empty forest made
  have kept : g.vertices <+: g'.vertices := by
    obtain ⟨-, -, -, older⟩ := addVertices_frame s.program g units'
    rwa [vertices]
  have calls := journal.calls.trans journal'.calls.symm
  rw [← reports'] at calls
  refine ⟨fresh, _, _, made, links, reports, kept, calls, ?_, ?_⟩
  · rintro ⟨sameVertices, sameLinks, sameReports⟩
    obtain ⟨noLinks, noReports⟩ := journal.nothing_older journal'
      (reports.symm.trans (sameReports.trans reports')) (links.symm.trans (sameLinks.trans links'))
    exact ⟨noLinks, noReports, sameVertices ▸ kept⟩
  · rintro ⟨noLinks, noReports, first⟩
    have enrolled := build_enrols forest (enrolled_empty s.program) units
    rw [failed] at enrolled
    rw [vertices'] at first
    have present := present_of_build_ok (g := empty) rfl made
    have equal := build_of_prefix forest enrolled unfinished noLinks noReports first present
    rw [retried, made] at equal
    cases equal
    exact ⟨rfl, rfl, rfl⟩

theorem interrupted_fresh :
    build (.reference interrupted {}) empty [⟨0⟩] =
      ({ interruptedGraph with built := true }, .ok ()) := by
  rw [build_eq interrupted_grown.forest rfl (by decide)]
  cbv

/-- The first unit, built after the interruption. The graph that was interrupted has a link, so the
outcome differs from that of a fresh graph. -/
theorem retry_adds_to_failed_build_interrupted :
    build (.reference interrupted {}) empty [⟨0⟩, ⟨5⟩] =
        (interruptedGraph,
          .error (.illegalState "Call m(..)@0 is outside of any type or callable declaration")) ∧
      build (.reference interrupted {}) interruptedGraph [⟨0⟩] = (repeatedGraph, .ok ()) ∧
      ∃ fresh, build (.reference interrupted {}) empty [⟨0⟩] = (fresh, .ok ()) ∧
        ¬(repeatedGraph.vertices = fresh.vertices ∧ repeatedGraph.links = fresh.links ∧
          repeatedGraph.reports = fresh.reports) := by
  refine ⟨interrupted_failed, interrupted_repeated, ?_⟩
  obtain ⟨fresh, -, -, made, -, -, -, -, exactly⟩ :=
    retry_adds_to_failed_build interrupted_grown interrupted_failed interrupted_repeated
  refine ⟨fresh, made, fun same => ?_⟩
  cases (exactly.mp same).1

/-- One call, linked and reported once by a build of its unit, and twice if a build of that unit
failed before at another. -/
theorem retry_repeats_links :
    (build (.reference interrupted {}) empty [⟨0⟩, ⟨5⟩]).2 =
        .error (.illegalState "Call m(..)@0 is outside of any type or callable declaration") ∧
      ∃ retried fresh,
        build (.reference interrupted {}) (build (.reference interrupted {}) empty [⟨0⟩, ⟨5⟩]).1
          [⟨0⟩] = (retried, .ok ()) ∧
        build (.reference interrupted {}) empty [⟨0⟩] = (fresh, .ok ()) ∧
        retried.links.length = 2 ∧ fresh.links.length = 1 ∧
        retried.reports.length = 2 ∧ fresh.reports.length = 1 := by
  rw [interrupted_failed]
  exact ⟨rfl, repeatedGraph, { interruptedGraph with built := true }, interrupted_repeated,
    interrupted_fresh, rfl, rfl, rfl, rfl⟩

end CallGraph

end JavaCallGraph
