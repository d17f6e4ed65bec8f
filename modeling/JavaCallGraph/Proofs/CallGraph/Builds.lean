import JavaCallGraph.Proofs.CallGraph.Linking

/-!
Whole builds, and the graphs they lead to.

`Step` says what one build comes to. From it follow where the reports, links and failures of a
graph come from, whatever builds were made before and however they ended.
-/

namespace JavaCallGraph.CallGraph

/-- A program with the reference answers about it. -/
abbrev Basis.reference (p : Program) (settings : Settings) : Basis where
  program := p
  facts := Facts.ofProgram p
  settings := settings

variable {s : Basis} {g g' : CallGraph} {places : List (NodeId × Walk.Scope)}
  {entries : List Entry} {result : Except Error Unit}

/-! ### Reading a journal -/

theorem Journal.exists_site (journal : Journal s g places entries) {e : Entry}
    (member : e ∈ entries) :
    ∃ node kind scope, (node, scope) ∈ places ∧ s.program.callKind? node = some kind ∧
      Records s g node kind scope e := by
  induction journal with
  | nil => cases member
  | pass _ _ ih =>
    obtain ⟨node, kind, scope, visited, site⟩ := ih member
    exact ⟨node, kind, scope, List.mem_cons_of_mem _ visited, site⟩
  | site isCall records _ ih =>
    rcases List.mem_cons.mp member with rfl | later
    · exact ⟨_, _, _, List.mem_cons_self, isCall, records⟩
    · obtain ⟨node, kind, scope, visited, site⟩ := ih later
      exact ⟨node, kind, scope, List.mem_cons_of_mem _ visited, site⟩

/-- A call is reported once for each visit, by the callable that the visit is in. -/
theorem Journal.callers (journal : Journal s g places entries) {call : NodeId} {kind : CallKind}
    (isCall : s.program.callKind? call = some kind) :
    ((entries.map (·.report)).filter (·.call = call)).map (·.caller) =
      (Walk.scopesAt places call).map (·.currentCallable?) := by
  induction journal with
  | nil => rfl
  | @pass node scope places entries noCall _ ih =>
    have other : node ≠ call := by
      rintro rfl
      rw [isCall] at noCall
      cases noCall
    rw [ih, Walk.scopesAt_cons, if_neg other]
  | @site node kind scope places e entries _ records _ ih =>
    rw [List.map_cons, List.filter_cons, Walk.scopesAt_cons, records.call_eq]
    by_cases here : node = call
    · simp [here, ih, records.caller_eq]
    · simp [here, ih]

/-- A link that is made to one of the targets of a call. -/
def Makes (s : Basis) (g : CallGraph) (link : Link) : Prop :=
  ∃ caller call kind scope reached, targets s call kind scope = .ok (.targets reached) ∧
    ∃ target ∈ reached, linkOf s g caller target kind call = .ok link

theorem Makes.linkOf {link : Link} (makes : Makes s g link) :
    ∃ caller target kind call, linkOf s g caller target kind call = .ok link := by
  obtain ⟨caller, call, kind, _, _, -, target, -, made⟩ := makes
  exact ⟨caller, target, kind, call, made⟩

theorem Records.makes {call : NodeId} {kind : CallKind} {scope : Walk.Scope} {e : Entry}
    (records : Records s g call kind scope e) {link : Link} (member : link ∈ e.links) :
    Makes s g link := by
  cases records with
  | found _ found _ => exact ⟨_, call, kind, scope, _, found, mem_linksTo.mp member⟩
  | noTargets _ _ => cases member
  | unresolved _ _ _ => cases member
  | typeLevel _ _ => cases member

theorem Fails.makes {call : NodeId} {kind : CallKind} {scope : Walk.Scope} {links : List Link}
    {e : Error} (fails : Fails s g call kind scope links e) {link : Link} (member : link ∈ links) :
    Makes s g link := by
  cases fails with
  | unlinked _ found _ _ =>
    obtain ⟨target, listed, made⟩ := mem_linksTo.mp member
    exact ⟨_, call, kind, scope, _, found, target, List.mem_append_left _ listed, made⟩
  | noTargets _ _ _ => cases member
  | unresolved _ _ _ => cases member
  | outside _ _ => cases member

theorem Journal.mem_reports (journal : Journal s g places entries) {r : Report}
    (member : r ∈ (g.addEntries entries).reports) :
    r ∈ g.reports ∨ ∃ node kind scope e, (node, scope) ∈ places ∧
      s.program.callKind? node = some kind ∧ Records s g node kind scope e ∧ e.report = r := by
  refine (List.mem_append.mp member).imp_right fun new => ?_
  obtain ⟨e, listed, rfl⟩ := List.mem_map.mp new
  obtain ⟨node, kind, scope, visited, isCall, records⟩ := journal.exists_site listed
  exact ⟨node, kind, scope, e, visited, isCall, records, rfl⟩

theorem Journal.mem_links (journal : Journal s g places entries) {link : Link}
    (member : link ∈ (g.addEntries entries).links) : link ∈ g.links ∨ Makes s g link := by
  refine (List.mem_append.mp member).imp_right fun new => ?_
  obtain ⟨e, listed, member⟩ := List.mem_flatMap.mp new
  obtain ⟨node, kind, scope, -, -, records⟩ := journal.exists_site listed
  exact records.makes member

/-! ### One pass -/

theorem Pass.mem_reports (pass : Pass s g places (g', result)) {r : Report}
    (member : r ∈ g'.reports) :
    r ∈ g.reports ∨ ∃ node kind scope e, (node, scope) ∈ places ∧
      s.program.callKind? node = some kind ∧ Records s g node kind scope e ∧ e.report = r := by
  cases pass with
  | done journal => exact journal.mem_reports member
  | stopped split journal _ _ =>
    refine (journal.mem_reports member).imp_right ?_
    rintro ⟨node, kind, scope, e, visited, site⟩
    exact ⟨node, kind, scope, e, split ▸ List.mem_append_left _ visited, site⟩

theorem Pass.mem_links (pass : Pass s g places (g', result)) {link : Link}
    (member : link ∈ g'.links) : link ∈ g.links ∨ Makes s g link := by
  cases pass with
  | done journal => exact journal.mem_links member
  | stopped _ journal _ fails =>
    rcases List.mem_append.mp member with earlier | last
    · exact journal.mem_links earlier
    · exact .inr (fails.makes last)

theorem Pass.vertices (pass : Pass s g places (g', result)) : g'.vertices = g.vertices := by
  cases pass with
  | done _ => rfl
  | stopped _ _ _ _ => rfl

theorem Pass.sound {p : Program} (pass : Pass s g places (g', result)) (sound : Sound p g) :
    Sound p g' := by
  cases pass with
  | done _ => exact ⟨sound.vertex, sound.bucket⟩
  | stopped _ _ _ _ => exact ⟨sound.vertex, sound.bucket⟩

/-! ### One build -/

/-- A build of a graph that is not built yet, as the linker at work on the listed visits. -/
theorem build_eq (forest : s.program.Forest) {units : List NodeId} (fresh : g.built = false)
    (present : ∀ u ∈ units, s.program.has u) :
    build s g units =
      match Walk.inTurn (Walk.attend (linker s)) (sites s units)
        (addVertices s.program g units) with
      | (g', .ok ()) => ({ g' with built := true }, .ok ())
      | (g', .error e) => (g', .error e) := by
  have all : units.find? (!s.program.has ·) = none := by simpa using present
  rw [build, if_neg (by simp [fresh]), all, addEdges,
    Walk.walk_eq_visits forest (linker_follows s) present]
  rfl

/-- What a build comes to. -/
inductive Step (s : Basis) (g : CallGraph) (units : List NodeId) :
    CallGraph × Except Error Unit → Prop where
  | kept : g.built → Step s g units (g, .ok ())
  | missing {id : NodeId} : ¬s.program.has id → Step s g units (g, .error (.missingNode id))
  | finished {g' : CallGraph} :
      (∀ u ∈ units, s.program.has u) →
      Pass s (addVertices s.program g units) (sites s units) (g', .ok ()) →
      Step s g units ({ g' with built := true }, .ok ())
  | failed {g' : CallGraph} {e : Error} :
      (∀ u ∈ units, s.program.has u) →
      Pass s (addVertices s.program g units) (sites s units) (g', .error e) →
      Step s g units (g', .error e)

theorem build_step (forest : s.program.Forest) (g : CallGraph) (units : List NodeId) :
    Step s g units (build s g units) := by
  unfold build
  split
  · next built => exact .kept built
  · split
    · next id absent =>
      have missing := List.find?_some absent
      exact .missing (by simpa using missing)
    · next all =>
      have present : ∀ u ∈ units, s.program.has u := by simpa using all
      have pass := addEdges_pass forest (addVertices s.program g units) present
      split
      · next g' walked =>
        rw [walked] at pass
        exact .finished present pass
      · next g' e walked =>
        rw [walked] at pass
        exact .failed present pass

/-- Enrolment adds vertices and leaves everything else alone. -/
theorem addVertices_frame (p : Program) (g : CallGraph) (units : List NodeId) :
    (addVertices p g units).reports = g.reports ∧ (addVertices p g units).links = g.links ∧
      (addVertices p g units).built = g.built ∧
        g.vertices <+: (addVertices p g units).vertices := by
  refine List.foldlRecOn (motive := fun g' : CallGraph => g'.reports = g.reports ∧
      g'.links = g.links ∧ g'.built = g.built ∧ g.vertices <+: g'.vertices)
    ((p.allUnder units).filter p.isCallable) (enroll p) ⟨rfl, rfl, rfl, List.prefix_rfl⟩ ?_
  rintro g' ⟨reports, links, built, vertices⟩ d _
  unfold enroll
  split
  · exact ⟨reports, links, built, vertices.trans (List.prefix_append _ _)⟩
  · exact ⟨reports, links, built, vertices⟩

theorem addVertices_reports (p : Program) (g : CallGraph) (units : List NodeId) :
    (addVertices p g units).reports = g.reports ∧ (addVertices p g units).links = g.links := by
  obtain ⟨reports, links, -⟩ := addVertices_frame p g units
  exact ⟨reports, links⟩

section

variable {units : List NodeId}

theorem Step.mem_reports (step : Step s g units (g', result)) {r : Report}
    (member : r ∈ g'.reports) :
    r ∈ g.reports ∨ ∃ node kind scope e, (node, scope) ∈ sites s units ∧
      s.program.callKind? node = some kind ∧
        Records s (addVertices s.program g units) node kind scope e ∧ e.report = r := by
  rw [← (addVertices_reports s.program g units).1]
  cases step with
  | kept _ => exact .inl ((addVertices_reports s.program g units).1 ▸ member)
  | missing _ => exact .inl ((addVertices_reports s.program g units).1 ▸ member)
  | finished _ pass => exact pass.mem_reports member
  | failed _ pass => exact pass.mem_reports member

theorem Step.mem_links (step : Step s g units (g', result)) {link : Link}
    (member : link ∈ g'.links) :
    link ∈ g.links ∨ ∃ caller target kind call,
      linkOf s (addVertices s.program g units) caller target kind call = .ok link := by
  rw [← (addVertices_reports s.program g units).2]
  cases step with
  | kept _ => exact .inl ((addVertices_reports s.program g units).2 ▸ member)
  | missing _ => exact .inl ((addVertices_reports s.program g units).2 ▸ member)
  | finished _ pass => exact (pass.mem_links member).imp_right Makes.linkOf
  | failed _ pass => exact (pass.mem_links member).imp_right Makes.linkOf

theorem Step.error {e : Error} (step : Step s g units (g', .error e)) :
    (∃ id, e = .missingNode id) ∨ ∃ node kind scope links, (node, scope) ∈ sites s units ∧
      s.program.callKind? node = some kind ∧
        Fails s (addVertices s.program g units) node kind scope links e := by
  cases step with
  | missing _ => exact .inl ⟨_, rfl⟩
  | failed _ pass =>
    cases pass with
    | stopped split _ isCall fails => exact .inr ⟨_, _, _, _, by simp [split], isCall, fails⟩

theorem Step.sound (step : Step s g units (g', result)) (sound : Sound s.program g) :
    Sound s.program g' := by
  cases step with
  | kept _ => exact sound
  | missing _ => exact sound
  | finished _ pass =>
    have walked := pass.sound (sound.addVertices units)
    exact ⟨walked.vertex, walked.bucket⟩
  | failed _ pass => exact pass.sound (sound.addVertices units)

end

/-! ### Any number of builds -/

/-- The graphs that builds lead to, whether the builds succeed or fail. -/
inductive Reached (s : Basis) : CallGraph → Prop where
  | empty : Reached s empty
  | build {g : CallGraph} (units : List NodeId) : Reached s g → Reached s (build s g units).1

theorem Reached.sound (forest : s.program.Forest) (reached : Reached s g) : Sound s.program g := by
  induction reached with
  | empty => exact sound_empty s.program
  | build units _ sound => exact (build_step forest _ units).sound sound

/-! ### Reports and their links -/

/-- Deal out links to reports, to each as many as it counts. -/
def deal : List Report → List Link → List (Report × List Link)
  | [], _ => []
  | r :: rest, links =>
    (r, links.take r.outcome.edges) :: deal rest (links.drop r.outcome.edges)

/-- The reports of a graph, each with the links made for it. -/
def groups (g : CallGraph) : List (Report × List Link) := deal g.reports g.links

theorem deal_entries (counted : ∀ e ∈ entries, e.report.outcome.edges = e.links.length) :
    deal (entries.map (·.report)) (entries.flatMap (·.links)) =
      entries.map fun e => (e.report, e.links) := by
  induction entries with
  | nil => rfl
  | cons e rest ih =>
    rw [List.map_cons, List.flatMap_cons, deal, counted e List.mem_cons_self, List.take_left,
      List.drop_left, ih fun e later => counted e (List.mem_cons_of_mem _ later), List.map_cons]

/-- A build that succeeds adds the vertices of its units and the entries of its visits. -/
theorem build_ok (forest : s.program.Forest) (fresh : g.built = false) {units : List NodeId}
    (built : build s g units = (g', .ok ())) :
    ∃ entries, Journal s (addVertices s.program g units) (sites s units) entries ∧
      g'.reports = g.reports ++ entries.map (·.report) ∧
        g'.links = g.links ++ entries.flatMap (·.links) ∧
          g'.vertices = (addVertices s.program g units).vertices ∧
            g'.bySignature = (addVertices s.program g units).bySignature := by
  have step := build_step forest g units
  rw [built] at step
  obtain ⟨keptReports, keptLinks⟩ := addVertices_reports s.program g units
  cases step with
  | kept already =>
    rw [fresh] at already
    cases already
  | finished present pass =>
    cases pass with
    | done journal =>
      rw [← keptReports, ← keptLinks]
      exact ⟨_, journal, rfl, rfl, rfl, rfl⟩

theorem build_empty (forest : s.program.Forest) {units : List NodeId}
    (built : build s empty units = (g, .ok ())) :
    ∃ entries, Journal s (addVertices s.program empty units) (sites s units) entries ∧
      g.reports = entries.map (·.report) ∧ g.links = entries.flatMap (·.links) ∧
        g.vertices = (addVertices s.program empty units).vertices ∧
          g.bySignature = (addVertices s.program empty units).bySignature :=
  build_ok forest rfl built

theorem reports_build_empty (forest : s.program.Forest) {units : List NodeId}
    (built : build s empty units = (g, .ok ())) {call : NodeId} {kind : CallKind}
    (isCall : s.program.callKind? call = some kind) :
    (g.reports.filter (·.call = call)).map (·.caller) =
      (Walk.scopesAt (sites s units) call).map (·.currentCallable?) := by
  obtain ⟨entries, journal, reports, -⟩ := build_empty forest built
  rw [reports, journal.callers isCall]

theorem groups_build_empty (forest : s.program.Forest) {units : List NodeId}
    (built : build s empty units = (g, .ok ())) {r : Report} {links : List Link}
    (member : (r, links) ∈ g.groups) :
    ∃ scope e, (r.call, scope) ∈ sites s units ∧ s.program.callKind? r.call = some r.kind ∧
      Records s (addVertices s.program empty units) r.call r.kind scope e ∧
        e.report = r ∧ e.links = links := by
  obtain ⟨entries, journal, reports, linked, -⟩ := build_empty forest built
  have counted : ∀ e ∈ entries, e.report.outcome.edges = e.links.length := by
    intro e listed
    obtain ⟨node, kind, scope, -, -, records⟩ := journal.exists_site listed
    exact records.edges_eq
  rw [groups, reports, linked, deal_entries counted] at member
  obtain ⟨e, listed, same⟩ := List.mem_map.mp member
  cases same
  obtain ⟨node, kind, scope, visited, isCall, records⟩ := journal.exists_site listed
  obtain rfl := records.call_eq
  obtain rfl := records.kind_eq
  exact ⟨scope, e, visited, isCall, records, rfl, rfl⟩

end JavaCallGraph.CallGraph
