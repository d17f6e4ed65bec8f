import JavaCallGraph.Proofs.CallGraph.Dispatching
import JavaCallGraph.Proofs.CallGraph.Enrolment
import JavaCallGraph.Proofs.CallGraph.LinkFailures

/-!
Reports and links account for each other.

Links are added one by one, a report only when all links of its call are there. With the reference
answers no failure comes between the two: where a call can be linked at all, what is missing for one
target is a vertex, and that is no reason to stop. So the links of a graph are those of its reports,
one group after the other, after any builds and however they ended.
-/

namespace JavaCallGraph.CallGraph

variable {p : Program} {settings : Settings} {s : Basis} {g g' : CallGraph}

/-! ### Targets -/

theorem collect_apart {candidates reached : List NodeId}
    (collected : collect p candidates = .targets reached) : reached ≠ [] ∧ Apart p reached := by
  have distinct := collect_eq_targets collected
  constructor
  · rintro rfl
    simp [collect, ← distinct] at collected
  · rw [distinct]
    exact Apart.distinct List.Pairwise.nil candidates

theorem dispatch_apart {call target : NodeId} {scope : Walk.Scope} {reached : List NodeId}
    (dispatched : dispatch s call target scope = .ok (.targets reached)) :
    reached ≠ [] ∧ Apart s.program reached := by
  obtain ⟨decl, -, dispatched⟩ := bind_eq_ok.mp dispatched
  split at dispatched
  · cases dispatched
    exact ⟨List.cons_ne_nil _ _, List.pairwise_singleton _ _⟩
  · obtain ⟨n, -, dispatched⟩ := bind_eq_ok.mp dispatched
    split at dispatched
    · obtain ⟨types?, -, dispatched⟩ := bind_eq_ok.mp dispatched
      cases types? with
      | none => exact collect_apart (Except.ok.inj dispatched)
      | some types =>
        obtain ⟨found, -, dispatched⟩ := bind_eq_ok.mp dispatched
        exact collect_apart (Except.ok.inj dispatched)
    · cases dispatched

/-- A call that has targets has at least one, and no two count as the same. -/
theorem targets_apart {call : NodeId} {kind : CallKind} {scope : Walk.Scope} {reached : List NodeId}
    (found : targets s call kind scope = .ok (.targets reached)) :
    reached ≠ [] ∧ Apart s.program reached := by
  obtain ⟨resolution, -, found⟩ := bind_eq_ok.mp found
  obtain ⟨decl, -, found⟩ := bind_eq_ok.mp found
  have single : [decl] ≠ [] ∧ Apart s.program [decl] :=
    ⟨List.cons_ne_nil _ _, List.pairwise_singleton _ _⟩
  cases kind with
  | methodCall => exact dispatch_apart found
  | objectCreation =>
    cases found
    exact single
  | constructorInvocation =>
    cases found
    exact single

/-! ### No failure strikes between a link and its report -/

/-- A pass adds whole entries, also when it fails. -/
theorem Pass.entries {places : List (NodeId × Walk.Scope)} {result : Except Error Unit}
    (pass : Pass (.reference p settings) g places (g', result)) :
    ∃ entries, g' = g.addEntries entries ∧ ∀ e ∈ entries, ∃ call kind scope,
      Records (.reference p settings) g call kind scope e := by
  have sites : ∀ {places entries}, Journal (.reference p settings) g places entries →
      ∀ e ∈ entries, ∃ call kind scope, Records (.reference p settings) g call kind scope e := by
    intro places entries journal e member
    obtain ⟨call, kind, scope, -, -, records⟩ := journal.exists_site member
    exact ⟨call, kind, scope, records⟩
  cases pass with
  | done journal => exact ⟨_, rfl, sites journal⟩
  | stopped _ journal isCall fails =>
    rw [fails.links_eq_nil isCall, addLinks_nil]
    exact ⟨_, rfl, sites journal⟩

/-! ### One report -/

/-- The links of one call: they leave the vertex of the caller and end at different vertices. -/
structure Fan (p : Program) (g : CallGraph) (r : Report) (links : List Link) : Prop where
  nonempty : links ≠ []
  site : ∀ l ∈ links, l.edge.call = r.call ∧ l.edge.kind = r.kind
  source : ∃ caller v, r.caller = some caller ∧ g.vertex? p caller = some v ∧
    ∀ l ∈ links, l.source = v.declaration
  target : ∀ l ∈ links, ∃ w ∈ g.vertices, w.declaration = l.target
  apart : Apart p (links.map (·.target))

/-- A report together with the links it stands for. -/
structure Accounted (p : Program) (g : CallGraph) (r : Report) (links : List Link) : Prop where
  linked : ∀ n, r.outcome = .linked n → links.length = n ∧ Fan p g r links
  other : ¬r.outcome.isLinked → links = []
  caller : r.caller = none ↔ r.outcome = .typeLevel

theorem linkOf_site {source target call : NodeId} {kind : CallKind} {link : Link}
    (made : linkOf s g source target kind call = .ok link) :
    link.edge.call = call ∧ link.edge.kind = kind := by
  obtain ⟨point, edge, caller, callee, -, anchored, -, -, rfl⟩ := linkOf_eq_ok.mp made
  obtain ⟨-, -, rfl⟩ := edge_of_eq_ok anchored
  exact ⟨rfl, rfl⟩

/-- Different targets have different vertices. -/
theorem apart_linksTo (sound : Sound s.program g) (caller : NodeId) (kind : CallKind) (call : NodeId)
    {reached : List NodeId} (apart : Apart s.program reached) :
    Apart s.program ((linksTo s g caller kind call reached).map (·.target)) := by
  have ends : ∀ {target link}, (linkOf s g caller target kind call).toOption = some link →
      s.program.sameDeclaration link.target target := by
    intro target link made
    cases linked : linkOf s g caller target kind call with
    | error e => simp [linked, Except.toOption] at made
    | ok link' =>
      cases (by simpa [linked, Except.toOption] using made : link' = link)
      obtain ⟨point, edge, source, callee, -, -, -, found, rfl⟩ := linkOf_eq_ok.mp linked
      exact (vertex?_spec sound found).2.1
  rw [Apart, List.pairwise_map, linksTo, List.pairwise_filterMap]
  refine apart.imp fun {t u} different l made m made' same => different ?_
  have back := Program.sameDeclaration_symm (ends made)
  exact Program.sameDeclaration_trans (Program.sameDeclaration_trans back same) (ends made')

theorem fan_linksTo (sound : Sound s.program g) {caller call : NodeId} {kind : CallKind}
    {reached : List NodeId} (apart : Apart s.program reached) (outcome : Outcome)
    (nonempty : linksTo s g caller kind call reached ≠ []) :
    Fan s.program g { call, kind, caller := some caller, outcome }
      (linksTo s g caller kind call reached) := by
  have made : ∀ l ∈ linksTo s g caller kind call reached, ∃ target v w,
      linkOf s g caller target kind call = .ok l ∧ g.vertex? s.program caller = some v ∧
        l.source = v.declaration ∧ w ∈ g.vertices ∧ w.declaration = l.target := by
    intro l member
    obtain ⟨target, -, linked⟩ := mem_linksTo.mp member
    obtain ⟨point, edge, v, w, -, -, leaves, enters, rfl⟩ := linkOf_eq_ok.mp linked
    exact ⟨target, v, w, linked, leaves, rfl, (vertex?_spec sound enters).1, rfl⟩
  refine ⟨nonempty, ?_, ?_, ?_, apart_linksTo sound caller kind call apart⟩
  · intro l member
    obtain ⟨target, -, -, linked, -⟩ := made l member
    exact linkOf_site linked
  · obtain ⟨first, member⟩ := List.exists_mem_of_ne_nil _ nonempty
    obtain ⟨-, v, -, -, leaves, -⟩ := made first member
    refine ⟨caller, v, rfl, leaves, fun l member => ?_⟩
    obtain ⟨-, v', -, -, leaves', source, -⟩ := made l member
    cases leaves.symm.trans leaves'
    exact source
  · intro l member
    obtain ⟨-, -, w, -, -, -, present, ends⟩ := made l member
    exact ⟨w, present, ends⟩

theorem Attempt.outcome_cases (a : Attempt) :
    a.outcome = .linked a.linked ∨ a.linked = 0 ∧ ∃ reason, a.outcome = .dropped reason := by
  unfold Attempt.outcome
  split
  · split
    · next none => exact .inr ⟨none, _, rfl⟩
    · exact .inl rfl
  · exact .inl rfl

theorem Records.accounted (sound : Sound s.program g) {call : NodeId} {kind : CallKind}
    {scope : Walk.Scope} {e : Entry} (records : Records s g call kind scope e) :
    Accounted s.program g e.report e.links := by
  cases records with
  | @found caller reached failure _ found complete =>
    obtain ⟨some, apart⟩ := targets_apart found
    rcases Attempt.outcome_cases
      { linked := (linksTo s g caller kind call reached).length, failure } with
      linked | ⟨none, reason, dropped⟩
    · -- no failure would mean a link to every target, and there is a target
      have nonempty : linksTo s g caller kind call reached ≠ [] := by
        intro nil
        rcases (Attempt.of_outcome_linked linked).2 with complete' | made
        · have all := complete complete'
          rw [nil, List.length_nil, eq_comm, List.length_eq_zero_iff] at all
          exact some all
        · exact made (by simp [nil])
      refine ⟨fun n linked' => ⟨?_, fan_linksTo sound apart _ nonempty⟩, fun noLink => ?_, ?_⟩
      · exact Outcome.linked.inj (linked.symm.trans linked')
      · exact absurd (by rw [linked]; rfl) noLink
      · simp [linked]
    · refine ⟨fun n linked => ?_, fun _ => List.length_eq_zero_iff.mp none, by simp [dropped]⟩
      cases dropped.symm.trans linked
  | noTargets _ _ => exact ⟨fun _ linked => (nomatch linked), fun _ => rfl, by simp⟩
  | unresolved _ _ _ => exact ⟨fun _ linked => (nomatch linked), fun _ => rfl, by simp⟩
  | typeLevel _ _ => exact ⟨fun _ linked => (nomatch linked), fun _ => rfl, by simp⟩

theorem Accounted.mono (sound : Sound p g) (sound' : Sound p g')
    (older : g.vertices <+: g'.vertices) {r : Report} {links : List Link}
    (accounted : Accounted p g r links) : Accounted p g' r links := by
  refine ⟨fun n linked => ?_, accounted.other, accounted.caller⟩
  obtain ⟨counted, fan⟩ := accounted.linked n linked
  obtain ⟨caller, v, called, found, leaves⟩ := fan.source
  refine ⟨counted, fan.nonempty, fan.site, ⟨caller, v, called, ?_, leaves⟩, ?_, fan.apart⟩
  · exact vertex?_of_prefix sound sound' older found
  · intro l member
    obtain ⟨w, present, ends⟩ := fan.target l member
    exact ⟨w, older.subset present, ends⟩

theorem edges_eq_zero {outcome : Outcome} (noLink : ¬outcome.isLinked) : outcome.edges = 0 := by
  cases outcome with
  | linked n => exact absurd rfl noLink
  | _ => rfl

theorem Accounted.edges_eq {r : Report} {links : List Link} (accounted : Accounted p g r links) :
    r.outcome.edges = links.length := by
  by_cases isLinked : r.outcome.isLinked
  · cases outcome : r.outcome with
    | linked n => exact (accounted.linked n outcome).1.symm
    | _ => simp [outcome, Outcome.isLinked] at isLinked
  · rw [edges_eq_zero isLinked, accounted.other isLinked, List.length_nil]

/-! ### Any number of builds -/

/-- A graph whose reports and links are those of a list of entries, each accounted for. -/
structure Ledger (p : Program) (g : CallGraph) (entries : List Entry) : Prop where
  reports : g.reports = entries.map (·.report)
  links : g.links = entries.flatMap (·.links)
  accounted : ∀ e ∈ entries, Accounted p g e.report e.links

theorem Ledger.of_same (sound : Sound p g) (sound' : Sound p g') {entries : List Entry}
    (older : g.vertices <+: g'.vertices) (reports : g'.reports = g.reports)
    (links : g'.links = g.links) (ledger : Ledger p g entries) : Ledger p g' entries where
  reports := reports.trans ledger.reports
  links := links.trans ledger.links
  accounted := fun e member => (ledger.accounted e member).mono sound sound' older

theorem Ledger.addEntries (sound : Sound p g) {entries more : List Entry}
    (ledger : Ledger p g entries) (accounted : ∀ e ∈ more, Accounted p g e.report e.links) :
    Ledger p (g.addEntries more) (entries ++ more) where
  reports := by simp [CallGraph.addEntries, ledger.reports]
  links := by simp [CallGraph.addEntries, ledger.links]
  accounted := by
    intro e member
    have sound' : Sound p (g.addEntries more) := ⟨sound.vertex, sound.bucket⟩
    apply Accounted.mono sound sound' List.prefix_rfl
    rcases List.mem_append.mp member with old | new
    · exact ledger.accounted e old
    · exact accounted e new

theorem Pass.ledger {places : List (NodeId × Walk.Scope)} {result : Except Error Unit}
    (sound : Sound p g) (pass : Pass (.reference p settings) g places (g', result))
    {entries : List Entry} (ledger : Ledger p g entries) : ∃ entries', Ledger p g' entries' := by
  obtain ⟨more, rfl, sites⟩ := pass.entries
  refine ⟨_, ledger.addEntries sound fun e member => ?_⟩
  obtain ⟨call, kind, scope, records⟩ := sites e member
  exact records.accounted sound

theorem Step.ledger {units : List NodeId} {result : Except Error Unit} (sound : Sound p g)
    (step : Step (.reference p settings) g units (g', result)) {entries : List Entry}
    (ledger : Ledger p g entries) : ∃ entries', Ledger p g' entries' := by
  have soundV : Sound p (addVertices p g units) := sound.addVertices units
  obtain ⟨reports, links, -, older⟩ := addVertices_frame p g units
  have enrolled : Ledger p (addVertices p g units) entries :=
    ledger.of_same sound soundV older reports links
  cases step with
  | kept _ => exact ⟨entries, ledger⟩
  | missing _ => exact ⟨entries, ledger⟩
  | finished _ pass =>
    obtain ⟨entries', walked⟩ := pass.ledger soundV enrolled
    have sound' := pass.sound soundV
    refine ⟨entries', walked.of_same sound' ?_ List.prefix_rfl rfl rfl⟩
    exact ⟨sound'.vertex, sound'.bucket⟩
  | failed _ pass => exact pass.ledger soundV enrolled

theorem Reached.ledger (forest : p.Forest) (reached : Reached (.reference p settings) g) :
    ∃ entries, Ledger p g entries := by
  induction reached with
  | empty => exact ⟨[], rfl, rfl, by simp⟩
  | @build g units reached ih =>
    obtain ⟨entries, ledger⟩ := ih
    exact (build_step forest g units).ledger (reached.sound forest) ledger

theorem Ledger.groups_eq {entries : List Entry} (ledger : Ledger p g entries) :
    g.groups = entries.map fun e => (e.report, e.links) := by
  rw [groups, ledger.reports, ledger.links]
  exact deal_entries fun e member => (ledger.accounted e member).edges_eq

/-! ### Counts -/

/-- Every report counts in one class. -/
theorem stats_callSites (g : CallGraph) :
    g.stats.callSites = g.stats.linked + g.stats.typeLevel + g.stats.unresolved +
      g.stats.noTargets + g.stats.dropped := by
  simp only [stats]
  induction g.reports with
  | nil => rfl
  | cons r rest ih =>
    simp only [List.length_cons, List.countP_cons, ih]
    cases r.outcome <;> simp [Outcome.isLinked, Outcome.isUnresolved, Outcome.isDropped] <;> omega

theorem Ledger.stats_edges {entries : List Entry} (ledger : Ledger p g entries) :
    g.stats.edges = (g.reports.map (·.outcome.edges)).sum := by
  have counted : ∀ e ∈ entries, e.report.outcome.edges = e.links.length := fun e member =>
    (ledger.accounted e member).edges_eq
  rw [stats, ledger.links, ledger.reports, List.length_flatMap, List.map_map]
  exact congrArg List.sum (List.map_congr_left fun e member => (counted e member).symm)

/-- After any builds, successful or not, the links of a graph are the groups of its reports in order.
The group of a linked report has as many links as the report counts, at least one. They are links of
its call, leave the vertex of its caller and end at different vertices. Other reports have no links,
and those of calls outside callables, and no others, have no caller. -/
theorem links_grouped_by_report (grown : p.Grown) (reached : Reached (.reference p settings) g) :
    g.groups.map (·.1) = g.reports ∧ g.groups.flatMap (·.2) = g.links ∧
      (∀ group ∈ g.groups, Accounted p g group.1 group.2) ∧
      g.stats.edges = (g.reports.map (·.outcome.edges)).sum ∧
      g.stats.callSites = g.stats.linked + g.stats.typeLevel + g.stats.unresolved +
        g.stats.noTargets + g.stats.dropped := by
  obtain ⟨entries, ledger⟩ := reached.ledger grown.forest
  refine ⟨?_, ?_, ?_, ledger.stats_edges, stats_callSites g⟩
  · rw [ledger.groups_eq, ledger.reports, List.map_map]
    rfl
  · rw [ledger.groups_eq, ledger.links, List.flatMap_map]
  · rw [ledger.groups_eq]
    intro group member
    obtain ⟨e, listed, rfl⟩ := List.mem_map.mp member
    exact ledger.accounted e listed

/-- The first unit built again after the interruption: its call is linked and reported a second
time. -/
def repeatedGraph : CallGraph :=
  { interruptedGraph with
    links := interruptedGraph.links ++ interruptedGraph.links
    reports := interruptedGraph.reports ++ interruptedGraph.reports
    built := true }

theorem interrupted_repeated :
    build (.reference interrupted {}) interruptedGraph [⟨0⟩] = (repeatedGraph, .ok ()) := by
  rw [build_eq interrupted_grown.forest rfl (by decide)]
  cbv

theorem links_grouped_by_report_repeated :
    Reached (.reference interrupted {}) repeatedGraph ∧
      repeatedGraph.groups.flatMap (·.2) = repeatedGraph.links ∧
      (∀ group ∈ repeatedGraph.groups, Accounted interrupted repeatedGraph group.1 group.2) ∧
      repeatedGraph.stats.edges = (repeatedGraph.reports.map (·.outcome.edges)).sum ∧
      repeatedGraph.stats.edges = 2 := by
  have reached : Reached (.reference interrupted {})
      (build (.reference interrupted {}) (build (.reference interrupted {}) empty [⟨0⟩, ⟨5⟩]).1
        [⟨0⟩]).1 := .build _ (.build _ .empty)
  rw [interrupted_failed, interrupted_repeated] at reached
  obtain ⟨-, links, accounted, edges, -⟩ := links_grouped_by_report interrupted_grown reached
  exact ⟨reached, links, accounted, edges, rfl⟩

end JavaCallGraph.CallGraph
