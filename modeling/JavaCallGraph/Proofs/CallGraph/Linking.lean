import JavaCallGraph.Proofs.CallGraph.Vertices
import JavaCallGraph.Proofs.Walk.Visits

/-!
What a build does at each call site.

The second pass of a build goes by a rule, `linkRule`, which does not look at the graph, so its
visits are known beforehand. At each visited call it adds one entry: a report and the links that
the report counts. `Records` lists all the ways in which an entry can come about and `Fails` those in
which a site ends the build. `Journal` and `Pass` string them along the visits. Vertices stay as the
first pass left them.
-/

namespace JavaCallGraph

/-- The number of links that an outcome stands for. -/
def Outcome.edges : Outcome → Nat
  | linked n => n
  | _ => 0

namespace CallGraph

def addLinks (g : CallGraph) (links : List Link) : CallGraph := { g with links := g.links ++ links }

theorem addLinks_nil (g : CallGraph) : g.addLinks [] = g := by
  simp [addLinks]

theorem addLinks_cons (g : CallGraph) (link : Link) (links : List Link) :
    g.addLinks (link :: links) = (g.addLink link).addLinks links := by
  simp [addLinks, addLink]

/-- What one call site adds to a graph. -/
structure Entry where
  report : Report
  links : List Link

def addEntry (g : CallGraph) (e : Entry) : CallGraph :=
  { g with links := g.links ++ e.links, reports := g.reports ++ [e.report] }

def addEntries (g : CallGraph) (entries : List Entry) : CallGraph :=
  { g with
    links := g.links ++ entries.flatMap (·.links)
    reports := g.reports ++ entries.map (·.report) }

theorem addEntries_nil (g : CallGraph) : g.addEntries [] = g := by
  simp [addEntries]

theorem addEntries_cons (g : CallGraph) (e : Entry) (entries : List Entry) :
    g.addEntries (e :: entries) = (g.addEntry e).addEntries entries := by
  simp [addEntries, addEntry]

variable {s : Basis}

/-! ### Links of one call -/

/-- The link of a call between two declarations. Of the graph it needs the vertices only. -/
def linkOf (s : Basis) (g : CallGraph) (source target : NodeId) (kind : CallKind) (call : NodeId) :
    Except Error Link := do
  let point ← s.facts.containingPoint source call
  let edge ← Edge.of s.program kind call point
  let caller ← g.vertex s.program source
  let callee ← g.vertex s.program target
  return { source := caller.declaration, target := callee.declaration, edge }

theorem addEdge_eq (g : CallGraph) (source target : NodeId) (kind : CallKind) (call : NodeId) :
    addEdge s g source target kind call = (linkOf s g source target kind call).map g.addLink := by
  simp only [addEdge, linkOf, bind, Except.bind, Except.map]
  split
  · rfl
  · split
    · rfl
    · split
      · rfl
      · split <;> rfl

theorem linkOf_eq_ok {g : CallGraph} {source target call : NodeId} {kind : CallKind} {link : Link} :
    linkOf s g source target kind call = .ok link ↔
      ∃ point edge caller callee, s.facts.containingPoint source call = .ok point ∧
        Edge.of s.program kind call point = .ok edge ∧ g.vertex? s.program source = some caller ∧
          g.vertex? s.program target = some callee ∧
            link = { source := caller.declaration, target := callee.declaration, edge } := by
  simp only [linkOf, bind_eq_ok, vertex_eq_ok, pure, Except.pure, Except.ok.injEq,
    eq_comm (b := link)]
  constructor
  · rintro ⟨point, located, edge, made, caller, leaves, callee, enters, same⟩
    exact ⟨point, edge, caller, callee, located, made, leaves, enters, same⟩
  · rintro ⟨point, edge, caller, callee, located, made, leaves, enters, same⟩
    exact ⟨point, located, edge, made, caller, leaves, callee, enters, same⟩

theorem edge_of_eq_ok {p : Program} {kind : CallKind} {call : NodeId} {point : ProgramPoint}
    {edge : Edge} (made : Edge.of p kind call point = .ok edge) :
    p.callKind? call = some kind ∧ p.contains point.node call ∧ edge = { kind, call, point } := by
  obtain ⟨n, read, made⟩ := bind_eq_ok.mp made
  split at made
  · cases made
  · next form =>
    split at made
    · cases made
    · next inside =>
      refine ⟨?_, by simpa using inside, (Except.ok.inj made).symm⟩
      simpa [Program.callKind?, Program.kind?, Program.node_eq_ok.mp read] using form

/-- The links that a call makes to those of its targets that can be linked. -/
def linksTo (s : Basis) (g : CallGraph) (caller : NodeId) (kind : CallKind) (call : NodeId)
    (targets : List NodeId) : List Link :=
  targets.filterMap fun target => (linkOf s g caller target kind call).toOption

section

variable {g : CallGraph} {caller call target : NodeId} {kind : CallKind} {rest : List NodeId}

theorem linksTo_cons_ok {link : Link} (made : linkOf s g caller target kind call = .ok link) :
    linksTo s g caller kind call (target :: rest) = link :: linksTo s g caller kind call rest := by
  simp [linksTo, made, Except.toOption]

theorem linksTo_cons_error {e : Error} (failed : linkOf s g caller target kind call = .error e) :
    linksTo s g caller kind call (target :: rest) = linksTo s g caller kind call rest := by
  simp [linksTo, failed, Except.toOption]

theorem mem_linksTo {link : Link} {targets : List NodeId} :
    link ∈ linksTo s g caller kind call targets ↔
      ∃ target ∈ targets, linkOf s g caller target kind call = .ok link := by
  simp only [linksTo, List.mem_filterMap]
  refine exists_congr fun target => and_congr_right fun _ => ?_
  cases linkOf s g caller target kind call <;> simp [Except.toOption]

end

theorem Attempt.edges_outcome (a : Attempt) : a.outcome.edges = a.linked := by
  unfold Attempt.outcome
  split
  · split
    · next none => simp [Outcome.edges, none]
    · rfl
  · rfl

theorem Attempt.outcome_ne_noTargets (a : Attempt) : a.outcome ≠ .noTargets := by
  unfold Attempt.outcome
  split
  · split <;> exact fun same => nomatch same
  · exact fun same => nomatch same

/-- An attempt that counts as linked made a link or met no failure. -/
theorem Attempt.of_outcome_linked {a : Attempt} {n : Nat} (linked : a.outcome = .linked n) :
    a.linked = n ∧ (a.failure = none ∨ a.linked ≠ 0) := by
  unfold Attempt.outcome at linked
  split at linked
  · split at linked
    · cases linked
    · next some => exact ⟨Outcome.linked.inj linked, .inr some⟩
  · next none => exact ⟨Outcome.linked.inj linked, .inl none⟩

/-- Connecting adds the links that can be made. Without a failure these lead to all targets. -/
theorem connect_ok {caller call : NodeId} {kind : CallKind} {targets : List NodeId}
    {attempt : Attempt} {g g' : CallGraph} {outcome : Outcome}
    (connected : connect s caller kind call targets attempt g = (g', .ok outcome)) :
    g' = g.addLinks (linksTo s g caller kind call targets) ∧
      ∃ failure, outcome = Attempt.outcome
          { linked := attempt.linked + (linksTo s g caller kind call targets).length, failure } ∧
        (failure = none → attempt.failure = none ∧
          (linksTo s g caller kind call targets).length = targets.length) := by
  induction targets generalizing attempt g with
  | nil =>
    cases connected
    exact ⟨(addLinks_nil _).symm, attempt.failure, rfl, fun none => ⟨none, rfl⟩⟩
  | cons target rest ih =>
    rw [connect, addEdge_eq] at connected
    cases made : linkOf s g caller target kind call with
    | ok link =>
      simp only [made, Except.map] at connected
      obtain ⟨graph, failure, result, complete⟩ := ih connected
      -- the new link does not touch the vertices, so the later links are those of `g`
      have same : linksTo s (g.addLink link) caller kind call rest =
          linksTo s g caller kind call rest := rfl
      rw [same] at graph result complete
      rw [linksTo_cons_ok made]
      refine ⟨by rw [graph, addLinks_cons], failure, ?_, fun none => ⟨(complete none).1, ?_⟩⟩
      · rw [result]
        congr 2
        simp only [List.length_cons]
        omega
      · simp [(complete none).2]
    | error e =>
      simp only [made, Except.map] at connected
      split at connected
      · obtain ⟨graph, failure, result, complete⟩ := ih connected
        rw [linksTo_cons_error made]
        exact ⟨graph, failure, result, fun none => nomatch (complete none).1⟩
      · cases connected

/-- A failure to connect comes from a target that cannot be linked. The links to the targets before
it stay. -/
theorem connect_error {caller call : NodeId} {kind : CallKind} {targets : List NodeId}
    {attempt : Attempt} {g g' : CallGraph} {e : Error}
    (connected : connect s caller kind call targets attempt g = (g', .error e)) :
    ∃ before target after, targets = before ++ target :: after ∧
      linkOf s g caller target kind call = .error e ∧ ¬e.isRecoverable ∧
        g' = g.addLinks (linksTo s g caller kind call before) := by
  induction targets generalizing attempt g with
  | nil => cases connected
  | cons target rest ih =>
    rw [connect, addEdge_eq] at connected
    cases made : linkOf s g caller target kind call with
    | ok link =>
      simp only [made, Except.map] at connected
      obtain ⟨before, culprit, after, rfl, failed, final, graph⟩ := ih connected
      refine ⟨target :: before, culprit, after, rfl, failed, final, ?_⟩
      rw [graph, linksTo_cons_ok made, addLinks_cons]
      rfl
    | error e' =>
      simp only [made, Except.map] at connected
      split at connected
      · obtain ⟨before, culprit, after, rfl, failed, final, graph⟩ := ih connected
        refine ⟨target :: before, culprit, after, rfl, failed, final, ?_⟩
        rw [graph, linksTo_cons_error made]
      · next final =>
        cases connected
        exact ⟨[], target, rest, rfl, made, final, (addLinks_nil _).symm⟩

/-! ### One call site -/

/-- All the ways in which a call site comes to its entry. -/
inductive Records (s : Basis) (g : CallGraph) (call : NodeId) (kind : CallKind)
    (scope : Walk.Scope) : Entry → Prop where
  | found {caller : NodeId} {reached : List NodeId} {failure : Option Error} :
      scope.currentCallable? = some caller →
      targets s call kind scope = .ok (.targets reached) →
      (failure = none → (linksTo s g caller kind call reached).length = reached.length) →
      Records s g call kind scope
        { report :=
            { call, kind, caller := some caller
              outcome := Attempt.outcome
                { linked := (linksTo s g caller kind call reached).length, failure } }
          links := linksTo s g caller kind call reached }
  | noTargets {caller : NodeId} :
      scope.currentCallable? = some caller →
      targets s call kind scope = .ok .noTargets →
      Records s g call kind scope
        { report := { call, kind, caller := some caller, outcome := .noTargets }, links := [] }
  | unresolved {caller : NodeId} {e : Error} :
      scope.currentCallable? = some caller →
      targets s call kind scope = .error e → e.isRecoverable →
      Records s g call kind scope
        { report := { call, kind, caller := some caller, outcome := .unresolved e.message }
          links := [] }
  | typeLevel {type : NodeId} :
      scope.currentCallable? = none → scope.currentType? = some type →
      Records s g call kind scope
        { report := { call, kind, caller := none, outcome := .typeLevel }, links := [] }

theorem linkTargets_ok {g g' : CallGraph} {caller call : NodeId} {kind : CallKind}
    {scope : Walk.Scope} {outcome : Outcome} (inside : scope.currentCallable? = some caller)
    (linked : linkTargets s g caller call kind scope = (g', .ok outcome)) :
    ∃ e, Records s g call kind scope e ∧
      g'.addReport { call, kind, caller := some caller, outcome } = g.addEntry e := by
  unfold linkTargets at linked
  split at linked
  · next reached result =>
    obtain ⟨graph, failure, rfl, complete⟩ := connect_ok linked
    refine ⟨_, .found inside result fun none => (complete none).2, ?_⟩
    simp [graph, addEntry, addReport, addLinks]
  · next result =>
    split at linked
    · cases linked
      exact ⟨_, .noTargets inside result, by simp [addEntry, addReport]⟩
    · cases linked
  · next e result =>
    split at linked
    · next recoverable =>
      cases linked
      exact ⟨_, .unresolved inside result recoverable, by simp [addEntry, addReport]⟩
    · cases linked

theorem linkCall_ok {g g' : CallGraph} {call : NodeId} {kind : CallKind} {scope : Walk.Scope}
    (linked : linkCall s g call kind scope = (g', .ok ())) :
    ∃ e, Records s g call kind scope e ∧ g' = g.addEntry e := by
  unfold linkCall at linked
  split at linked
  · next caller inside =>
    split at linked
    · next g₁ outcome attempted =>
      cases linked
      exact linkTargets_ok inside attempted
    · cases linked
  · next outside within =>
    cases linked
    exact ⟨_, .typeLevel outside within, by simp [addEntry, addReport]⟩
  · cases linked

/-- All the ways in which a call site ends a build, with the links it made before. -/
inductive Fails (s : Basis) (g : CallGraph) (call : NodeId) (kind : CallKind)
    (scope : Walk.Scope) : List Link → Error → Prop where
  | unlinked {caller target : NodeId} {before after : List NodeId} {e : Error} :
      scope.currentCallable? = some caller →
      targets s call kind scope = .ok (.targets (before ++ target :: after)) →
      linkOf s g caller target kind call = .error e → ¬e.isRecoverable →
      Fails s g call kind scope (linksTo s g caller kind call before) e
  | noTargets {caller : NodeId} :
      scope.currentCallable? = some caller →
      targets s call kind scope = .ok .noTargets → s.settings.zeroTargets = .strict →
      Fails s g call kind scope [] (.noDispatchTargets (s.program.describe call))
  | unresolved {caller : NodeId} {e : Error} :
      scope.currentCallable? = some caller →
      targets s call kind scope = .error e → ¬e.isRecoverable →
      Fails s g call kind scope [] e
  | outside {what : String} :
      scope.currentCallable? = none → scope.currentType? = none →
      Fails s g call kind scope [] (.illegalState what)

theorem linkTargets_error {g g' : CallGraph} {caller call : NodeId} {kind : CallKind}
    {scope : Walk.Scope} {e : Error} (inside : scope.currentCallable? = some caller)
    (linked : linkTargets s g caller call kind scope = (g', .error e)) :
    ∃ links, Fails s g call kind scope links e ∧ g' = g.addLinks links := by
  unfold linkTargets at linked
  split at linked
  · next reached result =>
    obtain ⟨before, target, after, rfl, failed, final, graph⟩ := connect_error linked
    exact ⟨_, .unlinked inside result failed final, graph⟩
  · next result =>
    split at linked
    · cases linked
    · next strict =>
      cases linked
      exact ⟨[], .noTargets inside result strict, (addLinks_nil _).symm⟩
  · next e' result =>
    split at linked
    · cases linked
    · next final =>
      cases linked
      exact ⟨[], .unresolved inside result final, (addLinks_nil _).symm⟩

theorem linkCall_error {g g' : CallGraph} {call : NodeId} {kind : CallKind} {scope : Walk.Scope}
    {e : Error} (linked : linkCall s g call kind scope = (g', .error e)) :
    ∃ links, Fails s g call kind scope links e ∧ g' = g.addLinks links := by
  unfold linkCall at linked
  split at linked
  · next caller inside =>
    split at linked
    · cases linked
    · next g₁ e' attempted =>
      cases linked
      exact linkTargets_error inside attempted
  · cases linked
  · next outside nowhere =>
    cases linked
    exact ⟨[], .outside outside nowhere, (addLinks_nil _).symm⟩

namespace Records

variable {g : CallGraph} {call : NodeId} {kind : CallKind} {scope : Walk.Scope} {e : Entry}

theorem call_eq (records : Records s g call kind scope e) : e.report.call = call := by
  cases records <;> rfl

theorem kind_eq (records : Records s g call kind scope e) : e.report.kind = kind := by
  cases records <;> rfl

/-- The caller is the innermost callable around the site, if there is one. -/
theorem caller_eq (records : Records s g call kind scope e) :
    e.report.caller = scope.currentCallable? := by
  cases records with
  | found inside _ _ => exact inside.symm
  | noTargets inside _ => exact inside.symm
  | unresolved inside _ _ => exact inside.symm
  | typeLevel outside _ => exact outside.symm

theorem edges_eq (records : Records s g call kind scope e) :
    e.report.outcome.edges = e.links.length := by
  cases records with
  | found _ _ _ => exact Attempt.edges_outcome _
  | noTargets _ _ => rfl
  | unresolved _ _ _ => rfl
  | typeLevel _ _ => rfl

end Records

/-! ### The rule of the second pass -/

/-- How the second pass goes on below a node. -/
def linkRule (s : Basis) : Walk.Rule := fun node scope =>
  match s.program.kind? node with
  | some (.field field) => fieldDescend s field scope
  | _ => .children

theorem linker_follows (s : Basis) : Walk.Follows (linker s) (linkRule s) := by
  intro g node scope descend answer
  unfold linker at answer
  unfold linkRule
  split at answer
  · next field kind =>
    cases answer
    simp [kind]
  · next k noField kind =>
    have children : descend = .children := by
      split at answer
      · split at answer <;> cases answer
        rfl
      · cases answer
        rfl
    subst children
    split
    · next field kind' =>
      rw [kind, Option.some.injEq] at kind'
      exact absurd kind' (noField field)
    · rfl
  · cases answer

theorem attend_linker_call {g : CallGraph} {node : NodeId} {kind : CallKind} {scope : Walk.Scope}
    (isCall : s.program.callKind? node = some kind) :
    Walk.attend (linker s) (node, scope) g = linkCall s g node kind scope := by
  obtain ⟨k, kindAt, callKind⟩ := Option.bind_eq_some_iff.mp isCall
  have noField : ∀ field, k ≠ .field field := by
    rintro field rfl
    cases callKind
  unfold Walk.attend linker
  simp only [kindAt, callKind]
  cases linkCall s g node kind scope with
  | mk g' result => cases result <;> rfl

theorem attend_linker_other {g : CallGraph} {node : NodeId} {scope : Walk.Scope}
    (present : s.program.has node) (noCall : s.program.callKind? node = none) :
    Walk.attend (linker s) (node, scope) g = (g, .ok ()) := by
  obtain ⟨k, kindAt⟩ := Program.kind?_of_has present
  have noCallKind : k.callKind? = none := by
    simpa [Program.callKind?, kindAt] using noCall
  unfold Walk.attend linker
  rw [kindAt]
  cases k with
  | field field => rfl
  | _ => simp only [noCallKind]

/-! ### The whole pass -/

/-- The entries that a list of visits leaves behind, one for each visited call. -/
inductive Journal (s : Basis) (g : CallGraph) : List (NodeId × Walk.Scope) → List Entry → Prop where
  | nil : Journal s g [] []
  | pass {node : NodeId} {scope : Walk.Scope} {places : List (NodeId × Walk.Scope)}
      {entries : List Entry} :
      s.program.callKind? node = none → Journal s g places entries →
      Journal s g ((node, scope) :: places) entries
  | site {node : NodeId} {kind : CallKind} {scope : Walk.Scope}
      {places : List (NodeId × Walk.Scope)} {e : Entry} {entries : List Entry} :
      s.program.callKind? node = some kind → Records s g node kind scope e →
      Journal s g places entries → Journal s g ((node, scope) :: places) (e :: entries)

/-- How a pass over some visits ends: after all of them, or at a call that fails. -/
inductive Pass (s : Basis) (g : CallGraph) (places : List (NodeId × Walk.Scope)) :
    CallGraph × Except Error Unit → Prop where
  | done {entries : List Entry} :
      Journal s g places entries → Pass s g places (g.addEntries entries, .ok ())
  | stopped {before after : List (NodeId × Walk.Scope)} {entries : List Entry} {node : NodeId}
      {kind : CallKind} {scope : Walk.Scope} {links : List Link} {e : Error} :
      places = before ++ (node, scope) :: after → Journal s g before entries →
      s.program.callKind? node = some kind → Fails s g node kind scope links e →
      Pass s g places ((g.addEntries entries).addLinks links, .error e)

section

variable {g : CallGraph} {node : NodeId} {kind : CallKind} {scope : Walk.Scope}
  {places : List (NodeId × Walk.Scope)} {first e : Entry} {entries : List Entry}
  {result : CallGraph × Except Error Unit}

/-! Entries and failures read of the graph its vertices only, so what a site added earlier does not
matter to the sites after it. -/

theorem Records.of_addEntry (records : Records s (g.addEntry first) node kind scope e) :
    Records s g node kind scope e := by
  cases records with
  | found inside result complete => exact .found inside result complete
  | noTargets inside result => exact .noTargets inside result
  | unresolved inside result recoverable => exact .unresolved inside result recoverable
  | typeLevel outside within => exact .typeLevel outside within

theorem Fails.of_addEntry {links : List Link} {error : Error}
    (fails : Fails s (g.addEntry first) node kind scope links error) :
    Fails s g node kind scope links error := by
  cases fails with
  | unlinked inside result failed final => exact .unlinked inside result failed final
  | noTargets inside result strict => exact .noTargets inside result strict
  | unresolved inside result final => exact .unresolved inside result final
  | outside outside nowhere => exact .outside outside nowhere

theorem Journal.of_addEntry (journal : Journal s (g.addEntry first) places entries) :
    Journal s g places entries := by
  induction journal with
  | nil => exact .nil
  | pass noCall _ ih => exact .pass noCall ih
  | site isCall records _ ih => exact .site isCall records.of_addEntry ih

theorem Pass.pass (noCall : s.program.callKind? node = none) (pass : Pass s g places result) :
    Pass s g ((node, scope) :: places) result := by
  cases pass with
  | done journal => exact .done (.pass noCall journal)
  | stopped split journal isCall fails =>
    exact .stopped (by rw [split, List.cons_append]) (.pass noCall journal) isCall fails

theorem Pass.site (isCall : s.program.callKind? node = some kind)
    (records : Records s g node kind scope first)
    (pass : Pass s (g.addEntry first) places result) :
    Pass s g ((node, scope) :: places) result := by
  cases pass with
  | done journal =>
    rw [← addEntries_cons]
    exact .done (.site isCall records journal.of_addEntry)
  | stopped split journal isCall' fails =>
    rw [← addEntries_cons]
    exact .stopped (by rw [split, List.cons_append]) (.site isCall records journal.of_addEntry)
      isCall' fails.of_addEntry

end

theorem pass_of_inTurn {places : List (NodeId × Walk.Scope)} {g : CallGraph}
    (present : ∀ place ∈ places, s.program.has place.1) :
    Pass s g places (Walk.inTurn (Walk.attend (linker s)) places g) := by
  induction places generalizing g with
  | nil =>
    have done := Pass.done (Journal.nil (s := s) (g := g))
    rwa [addEntries_nil] at done
  | cons place rest ih =>
    obtain ⟨node, scope⟩ := place
    have presentRest : ∀ place ∈ rest, s.program.has place.1 := fun place member =>
      present place (List.mem_cons_of_mem _ member)
    cases callKind : s.program.callKind? node with
    | none =>
      have presentHere : s.program.has node := present (node, scope) List.mem_cons_self
      rw [Walk.inTurn, attend_linker_other presentHere callKind, Walk.andThen_ok]
      exact (ih presentRest).pass callKind
    | some kind =>
      rw [Walk.inTurn, attend_linker_call callKind]
      cases linked : linkCall s g node kind scope with
      | mk g' result =>
        cases result with
        | error e =>
          obtain ⟨links, fails, rfl⟩ := linkCall_error linked
          rw [Walk.andThen_error]
          have stopped : Pass s g ((node, scope) :: rest)
              ((g.addEntries []).addLinks links, .error e) :=
            .stopped (List.nil_append _).symm .nil callKind fails
          rwa [addEntries_nil] at stopped
        | ok _ =>
          obtain ⟨e, records, rfl⟩ := linkCall_ok linked
          rw [Walk.andThen_ok]
          exact (ih presentRest).site callKind records

/-- The visits of the second pass over some units. -/
def sites (s : Basis) (units : List NodeId) : List (NodeId × Walk.Scope) :=
  Walk.visits s.program (linkRule s) units

theorem addEdges_pass (forest : s.program.Forest) {units : List NodeId} (g : CallGraph)
    (present : ∀ u ∈ units, s.program.has u) :
    Pass s g (sites s units) (addEdges s g units) := by
  rw [addEdges, Walk.walk_eq_visits forest (linker_follows s) present]
  exact pass_of_inTurn (Walk.has_of_visited forest present)

end CallGraph

end JavaCallGraph
