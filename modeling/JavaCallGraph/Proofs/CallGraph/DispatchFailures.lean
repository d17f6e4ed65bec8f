import JavaCallGraph.Proofs.CallGraph.Builds
import JavaCallGraph.Proofs.CallGraph.Scopes
import JavaCallGraph.Proofs.ResolverFailures
import JavaCallGraph.Proofs.Subtypes

/-!
How the search for what a call may run can fail.

The possible classes of a receiver are types of the program, so looking for a signature in them never
fails. All that is left are failures to type an operand of the call and names that nothing answers
to.
-/

namespace JavaCallGraph.CallGraph

variable {p : Program} {settings : Settings} {allowed : Error → Prop} {call : NodeId}
  {scope : Walk.Scope}

theorem isType_of_currentType? {s : Basis} (forest : s.program.Forest) {units : List NodeId}
    {n t : NodeId} (visited : (n, scope) ∈ sites s units) (current : scope.currentType? = some t) :
    s.program.isType t :=
  List.find?_some (enclosingType?_of_visited forest visited current)

theorem isType_of_receiverTypes (current : ∀ t, scope.currentType? = some t → p.isType t)
    {form : CallScope} {types : List NodeId}
    (possible : receiverTypes (.reference p settings) call scope form = .ok (some types)) :
    ∀ t ∈ types, p.isType t := by
  have typed := Hierarchy.build_typed p
  have subclasses : ∀ root, p.isType root →
      ∀ t ∈ (Hierarchy.build p).subclassesOf root, p.isType t :=
    fun root isType t member =>
      Hierarchy.isType_of_below (Hierarchy.mem_subclassesOf.mp member) isType
  intro t member
  cases form with
  | implicit => cases possible
  | this =>
    obtain ⟨root, enclosing, ⟨⟩⟩ := bind_eq_ok.mp possible
    exact subclasses root (current root (Resolver.orUnresolved_eq_ok.mp enclosing)) t member
  | qualifiedThis name =>
    obtain ⟨root, named, ⟨⟩⟩ := bind_eq_ok.mp possible
    exact subclasses root (Resolver.isType_of_resolveTypeName typed named) t member
  | super =>
    obtain ⟨type, -, possible⟩ := bind_eq_ok.mp possible
    obtain ⟨parent, above, ⟨⟩⟩ := bind_eq_ok.mp possible
    rw [List.mem_singleton.mp member]
    exact typed.parentOf? (Resolver.orUnresolved_eq_ok.mp above)
  | qualifiedSuper name =>
    obtain ⟨named, resolved, possible⟩ := bind_eq_ok.mp possible
    obtain ⟨root, above, ⟨⟩⟩ := bind_eq_ok.mp possible
    rw [List.mem_singleton.mp member]
    exact Resolver.isType_of_qualifiedSuperRoot? typed
      (Resolver.isType_of_resolveTypeName typed resolved) (Resolver.orUnresolved_eq_ok.mp above)
  | expression receiver =>
    obtain ⟨root, receiverType, ⟨⟩⟩ := bind_eq_ok.mp possible
    exact subclasses root (Resolver.isType_of_staticType typed receiverType) t member

theorem findBySignature_ne_error {t : NodeId} (isType : p.isType t) (decl : NodeId) :
    FailsOnlyBy allowed ((Hierarchy.build p).findBySignature t decl) := by
  obtain ⟨d, kind⟩ := Program.isType_iff.mp isType
  have present : (Hierarchy.build p).program.has t := Program.has_of_kind? kind
  unfold Hierarchy.findBySignature
  rw [present]
  simp only [Bool.not_true, Bool.and_false, Bool.false_eq_true, if_false]
  exact .ok _

section

variable (plain : ∀ reason, allowed (.unresolved reason))

include plain

theorem receiverTypes_fails {form : CallScope}
    (typing : ∀ e, form = .expression e →
      FailsOnlyBy allowed (Resolver.staticType (Hierarchy.build p) e)) :
    FailsOnlyBy allowed (receiverTypes (.reference p settings) call scope form) := by
  cases form with
  | implicit => exact .ok _
  | this => exact .bind (Resolver.orUnresolved_fails plain _ _) fun _ _ => .ok _
  | qualifiedThis name => exact .bind (Resolver.orUnresolved_fails plain _ _) fun _ _ => .ok _
  | super =>
    apply FailsOnlyBy.bind (Resolver.orUnresolved_fails plain _ _)
    intro type _
    exact .bind (Resolver.orUnresolved_fails plain _ _) fun _ _ => .ok _
  | qualifiedSuper name =>
    apply FailsOnlyBy.bind (Resolver.orUnresolved_fails plain _ _)
    intro named _
    exact .bind (Resolver.orUnresolved_fails plain _ _) fun _ _ => .ok _
  | expression receiver => exact .bind (typing receiver rfl) fun _ _ => .ok _

theorem declarationOf_fails (kind : CallKind) (resolution : Resolution) :
    FailsOnlyBy allowed (declarationOf (.reference p settings) kind resolution) := by
  cases resolution with
  | declaration d => exact .ok d
  | signature q =>
    rw [declarationOf]
    split
    · exact Resolver.unresolved_fails plain _
    · exact Resolver.orUnresolved_fails plain _ _

variable (current : ∀ t, scope.currentType? = some t → p.isType t)
  (typing : ∀ c, p.Operand call c → FailsOnlyBy allowed (Resolver.staticType (Hierarchy.build p) c))

include current typing

theorem dispatch_fails (isCall : p.callKind? call = some .methodCall) (target : NodeId) :
    FailsOnlyBy allowed (dispatch (.reference p settings) call target scope) := by
  obtain ⟨c, kind⟩ := Program.kind?_of_callKind? isCall
  obtain ⟨n, read, form⟩ := Option.map_eq_some_iff.mp kind
  apply FailsOnlyBy.bind (Resolver.orUnresolved_fails plain _ _)
  intro decl _
  split
  · exact .ok _
  · refine .bind (Resolver.node_ne_error (Program.has_of_get? read)) ?_
    intro m read'
    obtain rfl : m = n := Option.some.inj ((Program.node_eq_ok.mp read').symm.trans read)
    have receiver : ∀ e, c.scope = .expression e →
        FailsOnlyBy allowed (Resolver.staticType (Hierarchy.build p) e) :=
      fun e scope => typing e (.receiver (Program.receiver?_of_scope kind scope))
    rw [form]
    refine .bind (receiverTypes_fails plain receiver) ?_
    intro types? possible
    cases types? with
    | none => exact .ok _
    | some types =>
      refine .bind (.mapM fun t member => ?_) fun _ _ => .ok _
      exact findBySignature_ne_error (isType_of_receiverTypes current possible t member) target

/-- What keeps a call from having targets is a name that nothing answers to, or the failure to type
an operand. -/
theorem targets_fails {kind : CallKind} (isCall : p.callKind? call = some kind) :
    FailsOnlyBy allowed (targets (.reference p settings) call kind scope) := by
  have found : FailsOnlyBy allowed (p.node call) :=
    Resolver.node_ne_error (Program.has_of_callKind? isCall)
  refine .bind (Resolver.resolveWith_fails plain typing found) ?_
  intro resolution _
  apply FailsOnlyBy.bind (declarationOf_fails plain kind resolution)
  intro d _
  cases kind with
  | methodCall => exact dispatch_fails plain current typing isCall d
  | objectCreation => exact .ok _
  | constructorInvocation => exact .ok _

end

end JavaCallGraph.CallGraph
