import JavaCallGraph.Proofs.CallGraph.Builds
import JavaCallGraph.Proofs.CallGraph.Distinct
import JavaCallGraph.Proofs.CallGraph.Scopes
import JavaCallGraph.Proofs.ResolverFailures

/-!
What a method call is widened to.

The resolver takes the class of a receiver from the place of the call in the forest, the dispatcher
from the scope of the walk. At every visited call the two agree, so the dispatcher searches a type
in which the resolver's search began, and finds the declaration again. Hence a call that resolves
always has something to run, and the declaration it names is among what it may run.
-/

namespace JavaCallGraph.CallGraph

variable {p : Program} {settings : Settings}

/-! ### Collecting -/

theorem collect_eq_targets {candidates reached : List NodeId}
    (collected : collect p candidates = .targets reached) : reached = distinct p [] candidates := by
  unfold collect at collected
  split at collected
  · cases collected
  · cases collected
    rfl

theorem mem_of_collect {candidates reached : List NodeId} {m : NodeId}
    (collected : collect p candidates = .targets reached) (member : m ∈ reached) :
    m ∈ candidates := by
  rw [collect_eq_targets collected] at member
  exact (mem_of_distinct member).resolve_left List.not_mem_nil

/-- Every candidate is collected, up to identity of declarations. -/
theorem collect_reaches {candidates : List NodeId} {m : NodeId} (member : m ∈ candidates) :
    ∃ reached, collect p candidates = .targets reached ∧ ∃ k ∈ reached, p.sameDeclaration k m := by
  have covered : ∃ k ∈ distinct p [] candidates, p.sameDeclaration k m :=
    distinct_covers (.inr member)
  refine ⟨distinct p [] candidates, ?_, covered⟩
  unfold collect
  split
  · next none =>
    obtain ⟨k, kept, -⟩ := covered
    rw [none] at kept
    cases kept
  · rfl

/-! ### Where the two searches start -/

/-- A type at which the search for a method starts is a possible class of the receiver. -/
theorem mem_receiverTypes {call : NodeId} {scope : Walk.Scope} {form : CallScope}
    (agree : ∀ t, scope.currentType? = some t → p.enclosingType? call = some t)
    {roots types : List NodeId} {root : NodeId}
    (started : Resolver.searchRoots (Hierarchy.build p) (Resolver.staticType (Hierarchy.build p))
      call form = .ok roots) (member : root ∈ roots)
    (possible : receiverTypes (.reference p settings) call scope form = .ok (some types)) :
    root ∈ types := by
  cases form with
  | implicit => cases possible
  | this =>
    obtain ⟨t, enclosing, ⟨⟩⟩ := bind_eq_ok.mp started
    obtain ⟨u, current, ⟨⟩⟩ := bind_eq_ok.mp possible
    have outer := Resolver.orUnresolved_eq_ok.mp enclosing
    have inner := agree u (Resolver.orUnresolved_eq_ok.mp current)
    rw [List.mem_singleton.mp member, Option.some.inj (outer.symm.trans inner)]
    exact Hierarchy.mem_subclassesOf_self _ u
  | qualifiedThis name =>
    obtain ⟨t, named, ⟨⟩⟩ := bind_eq_ok.mp started
    obtain ⟨u, named', ⟨⟩⟩ := bind_eq_ok.mp possible
    rw [List.mem_singleton.mp member, Except.ok.inj (named.symm.trans named')]
    exact Hierarchy.mem_subclassesOf_self _ u
  | super =>
    obtain ⟨t, enclosing, started⟩ := bind_eq_ok.mp started
    obtain ⟨parent, above, ⟨⟩⟩ := bind_eq_ok.mp started
    obtain ⟨u, current, possible⟩ := bind_eq_ok.mp possible
    obtain ⟨parent', above', ⟨⟩⟩ := bind_eq_ok.mp possible
    have outer := Resolver.orUnresolved_eq_ok.mp enclosing
    have inner := agree u (Resolver.orUnresolved_eq_ok.mp current)
    cases Option.some.inj (outer.symm.trans inner)
    have same := (Resolver.orUnresolved_eq_ok.mp above).symm.trans
      (Resolver.orUnresolved_eq_ok.mp above')
    rw [List.mem_singleton.mp member, Option.some.inj same]
    exact List.mem_singleton_self parent'
  | qualifiedSuper name =>
    obtain ⟨named, resolved, started⟩ := bind_eq_ok.mp started
    obtain ⟨start, above, ⟨⟩⟩ := bind_eq_ok.mp started
    obtain ⟨named', resolved', possible⟩ := bind_eq_ok.mp possible
    obtain ⟨start', above', ⟨⟩⟩ := bind_eq_ok.mp possible
    cases Except.ok.inj (resolved.symm.trans resolved')
    have same := (Resolver.orUnresolved_eq_ok.mp above).symm.trans
      (Resolver.orUnresolved_eq_ok.mp above')
    rw [List.mem_singleton.mp member, Option.some.inj same]
    exact List.mem_singleton_self start'
  | expression receiver =>
    obtain ⟨t, typed, ⟨⟩⟩ := bind_eq_ok.mp started
    obtain ⟨u, typed', ⟨⟩⟩ := bind_eq_ok.mp possible
    rw [List.mem_singleton.mp member, Except.ok.inj (typed.symm.trans typed')]
    exact Hierarchy.mem_subclassesOf_self _ u

/-! ### Widening -/

theorem findBySignature_eq_ok {h : Hierarchy} {type decl : NodeId} {found : Option NodeId}
    (searched : h.findBySignature type decl = .ok found) :
    found = h.findBySignature? type decl := by
  unfold Hierarchy.findBySignature at searched
  split at searched
  · cases searched
  · exact (Except.ok.inj searched).symm

theorem mapM_findBySignature {h : Hierarchy} {types : List NodeId} {decl : NodeId}
    {found : List (Option NodeId)}
    (searched : types.mapM (fun t => h.findBySignature t decl) = .ok found) :
    found = types.map fun t => h.findBySignature? t decl := by
  induction types generalizing found with
  | nil =>
    cases searched
    rfl
  | cons t rest ih =>
    rw [List.mapM_cons] at searched
    obtain ⟨first, here, searched⟩ := bind_eq_ok.mp searched
    obtain ⟨others, later, ⟨⟩⟩ := bind_eq_ok.mp searched
    rw [List.map_cons, findBySignature_eq_ok here, ih later]

/-- What a dispatch comes to. -/
inductive Widened (p : Program) (settings : Settings) (call target : NodeId) (scope : Walk.Scope) :
    Dispatch → Prop where
  | static : Widened p settings call target scope (.targets [target])
  | implicit : Widened p settings call target scope
      (collect p ((Hierarchy.build p).overriddenBy target))
  | receiver {c : MethodCall} {types : List NodeId} :
      p.kind? call = some (.methodCall c) →
      receiverTypes (.reference p settings) call scope c.scope = .ok (some types) →
      Widened p settings call target scope
        (collect p (types.filterMap fun t => (Hierarchy.build p).findBySignature? t target))

theorem dispatch_widened {call target : NodeId} {scope : Walk.Scope} {result : Dispatch}
    (dispatched : dispatch (.reference p settings) call target scope = .ok result) :
    Widened p settings call target scope result := by
  obtain ⟨decl, -, dispatched⟩ := bind_eq_ok.mp dispatched
  split at dispatched
  · cases dispatched
    exact .static
  · obtain ⟨n, read, dispatched⟩ := bind_eq_ok.mp dispatched
    split at dispatched
    · next c kind =>
      obtain ⟨types?, possible, dispatched⟩ := bind_eq_ok.mp dispatched
      cases types? with
      | none =>
        cases dispatched
        exact .implicit
      | some types =>
        obtain ⟨found, searched, ⟨⟩⟩ := bind_eq_ok.mp dispatched
        rw [mapM_findBySignature searched, List.filterMap_map]
        have kindAt : p.kind? call = some (.methodCall c) := by
          simp [Program.kind?, Program.node_eq_ok.mp read, kind]
        exact .receiver kindAt possible
    · cases dispatched

/-- What a widened call may run: what it names, what overrides that, or what is found by its
signature from some type. -/
theorem Widened.cases_mem {call target m : NodeId} {scope : Walk.Scope} {reached : List NodeId}
    (widened : Widened p settings call target scope (.targets reached)) (member : m ∈ reached) :
    m = target ∨ m ∈ (Hierarchy.build p).overriddenBy target ∨
      ∃ t, (Hierarchy.build p).findBySignature? t target = some m := by
  generalize result : Dispatch.targets reached = dispatch at widened
  cases widened with
  | static =>
    cases result
    exact .inl (List.mem_singleton.mp member)
  | implicit => exact .inr (.inl (mem_of_collect result.symm member))
  | receiver _ _ =>
    obtain ⟨t, -, found⟩ := List.mem_filterMap.mp (mem_of_collect result.symm member)
    exact .inr (.inr ⟨t, found⟩)

/-- What a widened call may run has the signature of what it names. -/
theorem Widened.signature? {call target m : NodeId} {scope : Walk.Scope} {reached : List NodeId}
    (widened : Widened p settings call target scope (.targets reached)) (member : m ∈ reached) :
    p.signature? m = p.signature? target := by
  obtain rfl | overrides | ⟨t, found⟩ := widened.cases_mem member
  · rfl
  · exact Hierarchy.overriddenBy_signature overrides
  · exact Hierarchy.findBySignature?_signature found

/-- A method call that names `target`: its search starts at some types, and `target` is the nearest
declaration of its shape from one of them. -/
def Names (p : Program) (call target : NodeId) : Prop :=
  ∃ c roots root, p.kind? call = some (.methodCall c) ∧
    Resolver.searchRoots (Hierarchy.build p) (Resolver.staticType (Hierarchy.build p)) call
      c.scope = .ok roots ∧ root ∈ roots ∧
    Resolver.Nearest (Hierarchy.build p) c.name c.arguments.length root target

theorem Names.hasShape {call target : NodeId} (names : Names p call target) :
    ∃ c, p.kind? call = some (.methodCall c) ∧ p.hasShape c.name c.arguments.length target := by
  obtain ⟨c, _, _, kind, -, -, _, _, _, -, -, shape, -⟩ := names
  exact ⟨c, kind, shape⟩

/-- A method call that is resolved names a declaration, which is what the resolver reports. -/
theorem names_of_reported {call : NodeId} (isCall : p.callKind? call = some .methodCall)
    {resolution : Resolution}
    (resolved : Resolver.resolve (Hierarchy.build p) call = .ok resolution) :
    ∃ named, Names p call named ∧ Resolver.report (Hierarchy.build p) named = .ok resolution := by
  obtain ⟨c, kind⟩ := Program.kind?_of_callKind? isCall
  rw [Resolver.resolve_methodCall kind] at resolved
  obtain ⟨roots, root, decl, started, member, nearest, reported⟩ :=
    Resolver.resolveMethodCall_spec resolved
  exact ⟨decl, ⟨c, roots, root, kind, started, member, nearest⟩, reported⟩

theorem names_of_resolve {call d : NodeId} (isCall : p.callKind? call = some .methodCall)
    (resolved : Resolver.resolve (Hierarchy.build p) call = .ok (.declaration d)) :
    Names p call d := by
  obtain ⟨named, names, reported⟩ := names_of_reported isCall resolved
  rwa [Resolver.eq_of_report reported]

/-- The dispatcher finds what the resolver found. -/
theorem Widened.reaches (forest : p.Forest) {call target : NodeId} {scope : Walk.Scope}
    {result : Dispatch} (names : Names p call target)
    (agree : ∀ t, scope.currentType? = some t → p.enclosingType? call = some t)
    (widened : Widened p settings call target scope result) :
    ∃ reached, result = .targets reached ∧
      ∃ m ∈ reached, p.SignaturesDetermine → p.sameDeclaration m target := by
  cases widened with
  | static => exact ⟨[target], rfl, target, List.mem_singleton_self _, fun _ => p.sameDeclaration_refl target⟩
  | implicit =>
    obtain ⟨reached, collected, m, kept, same⟩ :=
      collect_reaches (p := p) (Hierarchy.mem_overriddenBy_self (Hierarchy.build p) target)
    exact ⟨reached, collected, m, kept, fun _ => same⟩
  | @receiver c types kindAt possible =>
    obtain ⟨c', roots, root, kindAt', started, member, nearest⟩ := names
    rw [kindAt, Option.some.injEq, NodeKind.methodCall.injEq] at kindAt'
    subst kindAt'
    have isType := Resolver.isType_of_searchRoots (Hierarchy.build_typed p) started root member
    -- the search by signature from `root` finds something; which declaration, signatures decide
    obtain ⟨m, found⟩ := Option.isSome_iff_exists.mp nearest.findBySignature?_isSome
    have candidate : m ∈ types.filterMap fun t => (Hierarchy.build p).findBySignature? t target :=
      List.mem_filterMap.mpr ⟨root, mem_receiverTypes agree started member possible, found⟩
    obtain ⟨reached, collected, k, kept, same⟩ := collect_reaches (p := p) candidate
    refine ⟨reached, collected, k, kept, fun determine => ?_⟩
    obtain ⟨m', found', named⟩ :=
      nearest.findBySignature? forest (Hierarchy.build_typed p) determine isType
    cases found.symm.trans found'
    exact Program.sameDeclaration_trans same named

/-! ### The targets of a call -/

section

variable {call : NodeId} {kind : CallKind} {scope : Walk.Scope} {units : List NodeId}

/-- A visited method call that resolves to a declaration has targets. All have its signature, and
it is one of them. -/
theorem targets_of_resolve (forest : p.Forest)
    (visited : (call, scope) ∈ sites (.reference p settings) units)
    (isCall : p.callKind? call = some .methodCall) {d : NodeId}
    (resolved : Resolver.resolve (Hierarchy.build p) call = .ok (.declaration d))
    {result : Dispatch} (found : targets (.reference p settings) call .methodCall scope = .ok result) :
    ∃ reached, result = .targets reached ∧ (∀ m ∈ reached, p.signature? m = p.signature? d) ∧
      ∃ m ∈ reached, p.SignaturesDetermine → p.sameDeclaration m d := by
  obtain ⟨resolution, answered, found⟩ := bind_eq_ok.mp found
  cases answered.symm.trans resolved
  obtain ⟨decl, ⟨⟩, dispatched⟩ := bind_eq_ok.mp found
  have widened := dispatch_widened dispatched
  have agree : ∀ t, scope.currentType? = some t → p.enclosingType? call = some t := fun _ current =>
    enclosingType?_of_visited forest visited current
  obtain ⟨reached, rfl, reaches⟩ := widened.reaches forest (names_of_resolve isCall resolved) agree
  exact ⟨reached, rfl, fun m member => widened.signature? member, reaches⟩

/-- In a program without libraries dispatch always leaves something to run. -/
theorem targets_ne_noTargets (forest : p.Forest) (sources : p.SourceOnly)
    (visited : (call, scope) ∈ sites (.reference p settings) units)
    (isCall : p.callKind? call = some kind) :
    targets (.reference p settings) call kind scope ≠ .ok .noTargets := by
  intro nothing
  cases kind with
  | methodCall =>
    obtain ⟨resolution, resolved, -⟩ := bind_eq_ok.mp nothing
    -- without libraries the answer is a declaration, so the dispatcher finds it again
    obtain ⟨d, -, reported⟩ := names_of_reported isCall resolved
    rw [Resolver.report_of_sourceOnly sources] at reported
    cases reported
    obtain ⟨reached, impossible, -⟩ := targets_of_resolve forest visited isCall resolved nothing
    cases impossible
  | _ =>
    obtain ⟨resolution, -, nothing⟩ := bind_eq_ok.mp nothing
    obtain ⟨d, -, impossible⟩ := bind_eq_ok.mp nothing
    cases impossible

end

end JavaCallGraph.CallGraph
