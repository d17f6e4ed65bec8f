import JavaCallGraph.Proofs.CallGraph.BodyCalls
import JavaCallGraph.Proofs.PointTable

/-!
Calls in the initializers of fields.

A non-static field is run by every constructor of its type. The walk enters the initializer once
for each of them, and the table of points gives each of them the field as a point. The two decide by
themselves, the one by its scopes and the other by the members of the type, and they agree: a call
in the initializer is reported by each constructor in order, at the field. Statements inside the
initializer, such as those of a lambda, belong to no callable and never come between.
-/

namespace JavaCallGraph.CallGraph

/-- A node in the initializer of a non-static field. The field is a member of a type outside all
callables and fields, and no declaration and no other field separates it from the node. -/
structure InInitializer (p : Program) (type f n : NodeId) : Prop where
  isType : p.isType type
  outermost : ∀ a ∈ p.ancestors type, ¬p.isCallable a ∧ ¬p.isField a
  member : p.parent? f = some type
  field : ∃ decl, p.kind? f = some (.field decl) ∧ decl.isStatic = false
  beneath : f ∈ p.ancestors n
  direct : ∀ x ∈ p.ancestors n, f ∈ p.ancestors x → ¬p.isDeclaration x ∧ ¬p.isField x

section Visits

variable {s : Basis} {type f n q : NodeId}

namespace InInitializer

/-- Nothing above the field makes the calls in it belong to a callable, or is a field itself. -/
theorem unopened (within : InInitializer s.program type f n) (forest : s.program.Forest)
    {a : NodeId} (above : a ∈ s.program.ancestors f) : ¬opensCallable s a ∧ ¬s.program.isField a := by
  have quiet : ∀ {a}, ¬s.program.isCallable a → ¬s.program.isField a →
      ¬opensCallable s a ∧ ¬s.program.isField a := by
    intro a noCallable noField
    rw [opensCallable_of_other noField]
    exact ⟨noCallable, noField⟩
  rw [forest.ancestors_child within.member] at above
  rcases List.mem_cons.mp above with rfl | higher
  · obtain ⟨decl, kind⟩ := Program.isType_iff.mp within.isType
    apply quiet
    · intro callable
      obtain ⟨_, kind'⟩ := Program.isCallable_iff.mp callable
      cases kind.symm.trans kind'
    · intro isField
      obtain ⟨_, kind'⟩ := Program.isField_iff.mp isField
      cases kind.symm.trans kind'
  · exact quiet (within.outermost a higher).1 (within.outermost a higher).2

/-- The field is visited once, in its type and outside all callables. -/
theorem field_visited (within : InInitializer s.program type f n) (forest : s.program.Forest) :
    ∃ scope, Walk.scopesAt (sites s s.program.units) f = [scope] ∧
      scope.currentCallable? = none ∧ scope.currentType? = some type := by
  have outside : insideCallable s f = false := by
    rw [insideCallable, List.any_eq_false]
    exact fun a above => (within.unopened forest above).1
  have entered : passedBy s f = false := by
    rw [passedBy, List.any_eq_false]
    intro a above passes
    exact (within.unopened forest above).2 ((Bool.and_eq_true _ _).mp passes).1
  obtain ⟨u, unit, below⟩ := forest.exists_unit_above (Program.has_of_parent? within.member)
  have visits := visited_beneath_unit forest (List.Subset.refl _) forest.units_nodup
    ⟨u, unit, forest.mem_descendants.mp below⟩
  rw [if_neg (by simp [entered])] at visits
  obtain ⟨scope, repeats, scopes, met⟩ := visits
  rw [met.once (.inr outside)] at scopes
  have visited : (f, scope) ∈ sites s s.program.units := by
    rw [← Walk.mem_scopesAt, scopes]
    exact List.mem_cons_self
  refine ⟨scope, scopes, ?_, ?_⟩
  · have isNone := met.inside scope List.mem_cons_self
    rw [outside] at isNone
    simpa using isNone
  · rw [currentType?_of_visited forest (List.Subset.refl _) visited]
    exact forest.enclosingType?_member within.isType (forest.mem_children.mpr within.member)

/-- Below the field itself there is a pass for every constructor. -/
theorem callers_of_child (within : InInitializer s.program type f n) (forest : s.program.Forest)
    (attributed : s.settings.fieldInitializersToConstructors)
    (constructed : s.program.constructorsOf type ≠ []) (above : s.program.parent? q = some f)
    (plain : ¬s.program.isDeclaration q) :
    (Walk.scopesAt (sites s s.program.units) q).map (·.currentCallable?) =
      (s.program.constructorsOf type).map some := by
  obtain ⟨scope, scopes, outside, typed⟩ := within.field_visited forest
  obtain ⟨decl, kind, dynamic⟩ := within.field
  have run : runners s decl scope.currentType? = s.program.constructorsOf type := by
    simp [runners, dynamic, attributed, typed]
  rw [scopesAt_plain_child forest (List.Subset.refl _) above plain, scopes, List.flatMap_singleton,
    openings_field_outside kind outside, run]
  cases constructors : s.program.constructorsOf type with
  | nil => exact absurd constructors constructed
  | cons first later =>
    simp only [List.map_cons, List.map_map]
    rfl

/-- A node in the initializer is visited once for every constructor of the type, in their order. -/
theorem callers (within : InInitializer s.program type f n) (forest : s.program.Forest)
    (attributed : s.settings.fieldInitializersToConstructors)
    (constructed : s.program.constructorsOf type ≠ []) (plain : ¬s.program.isDeclaration n) :
    (Walk.scopesAt (sites s s.program.units) n).map (·.currentCallable?) =
      (s.program.constructorsOf type).map some := by
  -- from the field down; between field and node the passes stay as they are
  induction n using forest.climb with
  | step n ih =>
    cases above : s.program.parent? n with
    | none =>
      have beneath := within.beneath
      rw [Program.Forest.ancestors_root above] at beneath
      cases beneath
    | some q =>
      have line := forest.ancestors_child above
      have beneath := within.beneath
      rw [line] at beneath
      rcases List.mem_cons.mp beneath with rfl | higher
      · exact within.callers_of_child forest attributed constructed above plain
      · obtain ⟨plainParent, noField⟩ :=
          within.direct q (by rw [line]; exact List.mem_cons_self) higher
        have parent : InInitializer s.program type f q := by
          refine { within with beneath := higher, direct := fun x between => ?_ }
          exact within.direct x (by rw [line]; exact List.mem_cons_of_mem q between)
        rw [scopesAt_plain_child forest (List.Subset.refl _) above plain]
        simp only [openings_other noField, below_plain plainParent, List.flatMap_singleton']
        exact ih q above parent plainParent

end InInitializer

end Visits

section Points

variable {p : Program} {type f n k : NodeId}

theorem mem_initializedFields_of_constructor (forest : p.Forest) (isType : p.isType type)
    (constructor : k ∈ p.constructorsOf type) (member : p.parent? f = some type) {decl : FieldDecl}
    (kind : p.kind? f = some (.field decl)) (dynamic : decl.isStatic = false) :
    f ∈ p.initializedFields k := by
  obtain ⟨child, ofKind⟩ := List.mem_filter.mp constructor
  rw [Program.initializedFields, if_pos ofKind, forest.enclosingType?_member isType child]
  refine List.mem_filter.mpr ⟨List.mem_filter.mpr ⟨forest.mem_children.mpr member, ?_⟩, ?_⟩
  · exact Program.isField_iff.mpr ⟨decl, kind⟩
  · simp [Program.fieldDecl?, kind, NodeKind.field?, dynamic]

/-- The point of a constructor around a node in the initializer of a field is the field. -/
theorem InInitializer.located (within : InInitializer p type f n) (forest : p.Forest)
    (constructor : k ∈ p.constructorsOf type) :
    ∃ point, (PointIndex.build p).containing k n = .ok point ∧ point.declaration = k ∧
      point.node = f := by
  obtain ⟨decl, kind, dynamic⟩ := within.field
  have callable := Program.isCallable_of_member constructor
  have present := Program.Forest.has_of_ancestor within.beneath
  have around : f ∈ p.lineage n := List.mem_cons_of_mem n within.beneath
  have initialized := mem_initializedFields_of_constructor forest within.isType constructor
    within.member kind dynamic
  have listed : f ∈ ((PointIndex.build p).of k).map (·.node) := by
    rw [PointIndex.map_node_of forest, if_pos callable]
    exact List.mem_append_left _ initialized
  obtain ⟨atField, ofConstructor, node⟩ := List.mem_map.mp listed
  obtain ⟨point, found⟩ : ∃ point, (PointIndex.build p).containing k n = .ok point :=
    (PointIndex.exists_containing_iff forest present).mpr ⟨atField, ofConstructor, node ▸ around⟩
  have innermost := (PointIndex.containing_eq_ok_iff forest present).mp found
  have below : f ∈ p.lineage point.node :=
    node ▸ innermost.inner atField ofConstructor (node ▸ around)
  obtain ⟨declared, -, owns⟩ := PointIndex.containing_build forest found
  have sibling := forest.mem_children.mp (List.mem_filter.mp constructor).1
  refine ⟨point, found, declared, ?_⟩
  rcases owns with ⟨-, owner⟩ | initializes
  · -- a statement of the constructor lies below it, and not below its sibling
    have inside := List.mem_cons_of_mem point.node (List.mem_of_find?_eq_some owner)
    obtain rfl := forest.eq_of_siblings sibling within.member inside below
    obtain ⟨_, kind'⟩ := Program.isCallable_iff.mp callable
    cases kind.symm.trans kind'
  · obtain ⟨type', enclosing, parent⟩ := initializes.member
    rw [forest.enclosingType?_member within.isType (List.mem_filter.mp constructor).1] at enclosing
    cases enclosing
    exact forest.eq_of_siblings parent within.member List.mem_cons_self below

end Points

theorem not_isDeclaration_of_callKind? {p : Program} {c : NodeId} {kind : CallKind}
    (isCall : p.callKind? c = some kind) : ¬p.isDeclaration c := by
  obtain ⟨k, kindAt, form⟩ := Option.bind_eq_some_iff.mp isCall
  cases k <;> simp_all [Program.isDeclaration, NodeKind.isDeclaration, NodeKind.callKind?]

/-- The links of an entry are made for the callable that the visit is in. -/
theorem Records.linkOf {s : Basis} {g : CallGraph} {call : NodeId} {kind : CallKind}
    {scope : Walk.Scope} {e : Entry} (records : Records s g call kind scope e) {link : Link}
    (member : link ∈ e.links) :
    ∃ caller target, scope.currentCallable? = some caller ∧
      linkOf s g caller target kind call = .ok link := by
  cases records with
  | found inside _ _ =>
    obtain ⟨target, -, made⟩ := mem_linksTo.mp member
    exact ⟨_, target, inside, made⟩
  | noTargets _ _ => cases member
  | unresolved _ _ _ => cases member
  | typeLevel _ _ => cases member

variable {p : Program} {settings : Settings} {type f c : NodeId} {kind : CallKind}

/-- The entry of a call in an initializer: a constructor reports it, it is not dropped, and its
links leave from the field. -/
theorem InInitializer.entry (within : InInitializer p type f c) (forest : p.Forest)
    (attributed : settings.fieldInitializersToConstructors)
    (constructed : p.constructorsOf type ≠ []) (isCall : p.callKind? c = some kind)
    {scope : Walk.Scope} (visited : (c, scope) ∈ sites (.reference p settings) p.units) {e : Entry}
    (records : Records (.reference p settings) (addVertices p empty p.units) c kind scope e) :
    ∃ k ∈ p.constructorsOf type, e.report.caller = some k ∧
      (∀ reason, e.report.outcome ≠ .dropped reason) ∧
      ∀ l ∈ e.links, l.edge.call = c ∧ l.edge.point.declaration = k ∧ l.edge.point.node = f := by
  have callers := within.callers (s := .reference p settings) forest attributed constructed
    (not_isDeclaration_of_callKind? isCall)
  have current : scope.currentCallable? ∈ (p.constructorsOf type).map some := by
    rw [← callers]
    exact List.mem_map_of_mem (Walk.mem_scopesAt.mpr visited)
  obtain ⟨k, constructor, inside⟩ := List.mem_map.mp current
  obtain ⟨point, located, declared, node⟩ := within.located forest constructor
  refine ⟨k, constructor, records.caller_eq.trans inside.symm, ?_, fun l member => ?_⟩
  · exact records.not_dropped forest (fun _ => vertex?_of_callable forest) isCall inside.symm
      (Program.isCallable_of_member constructor) located
  · obtain ⟨caller, target, current, made⟩ := records.linkOf member
    cases inside.trans current
    obtain ⟨point', edge, _, _, located', anchored, -, -, rfl⟩ := linkOf_eq_ok.mp made
    obtain ⟨-, -, rfl⟩ := edge_of_eq_ok anchored
    cases located.symm.trans located'
    exact ⟨rfl, declared, node⟩

/-- In a build of the whole program that attributes fields to constructors, a call in the
initializer of a field is reported once by each constructor of the type, in their order. No report
says that the call was dropped, and the links of each report leave from the field as a point of the
constructor that reports. -/
theorem initializer_calls_anchored (grown : p.Grown)
    (attributed : settings.fieldInitializersToConstructors) (within : InInitializer p type f c)
    (constructed : p.constructorsOf type ≠ []) (isCall : p.callKind? c = some kind) {g : CallGraph}
    (built : build (.reference p settings) empty p.units = (g, .ok ())) :
    (g.reports.filter (·.call = c)).map (·.caller) = (p.constructorsOf type).map some ∧
      (∀ r ∈ g.reports, r.call = c → ∀ reason, r.outcome ≠ .dropped reason) ∧
      (∀ group ∈ g.groups, group.1.call = c → ∀ l ∈ group.2,
        l.edge.call = c ∧ l.edge.point.node = f ∧ group.1.caller = some l.edge.point.declaration) ∧
      ∀ l ∈ g.links, l.edge.call = c →
        l.edge.point.node = f ∧ l.edge.point.declaration ∈ p.constructorsOf type := by
  have forest := grown.forest
  obtain ⟨entries, journal, reports, links, -⟩ :=
    build_empty (s := .reference p settings) forest built
  refine ⟨?_, ?_, ?_, ?_⟩
  · rw [reports_build_empty (s := .reference p settings) forest built isCall]
    exact within.callers (s := .reference p settings) forest attributed constructed
      (not_isDeclaration_of_callKind? isCall)
  · intro r reported about
    rw [reports] at reported
    obtain ⟨e, listed, rfl⟩ := List.mem_map.mp reported
    obtain ⟨c', kind', scope, visited, isCall', records⟩ := journal.exists_site listed
    obtain rfl : c' = c := records.call_eq.symm.trans about
    obtain ⟨k, -, -, kept, -⟩ :=
      within.entry forest attributed constructed isCall' visited records
    exact kept
  · rintro ⟨r, made⟩ member rfl l linked
    obtain ⟨scope, e, visited, isCall', records, rfl, rfl⟩ :=
      groups_build_empty (s := .reference p settings) forest built member
    obtain ⟨k, -, caller, -, anchored⟩ :=
      within.entry forest attributed constructed isCall' visited records
    obtain ⟨call, declared, node⟩ := anchored l linked
    exact ⟨call, node, caller.trans (congrArg some declared.symm)⟩
  · intro l member about
    rw [links] at member
    obtain ⟨e, listed, linked⟩ := List.mem_flatMap.mp member
    obtain ⟨c', kind', scope, visited, isCall', records⟩ := journal.exists_site listed
    obtain ⟨caller, target, -, made⟩ := records.linkOf linked
    obtain rfl : c' = c := (linkOf_site made).1.symm.trans about
    obtain ⟨k, constructor, -, -, anchored⟩ :=
      within.entry forest attributed constructed isCall' visited records
    obtain ⟨-, declared, node⟩ := anchored l linked
    exact ⟨node, declared ▸ constructor⟩

/-- A class with two constructors and a field whose initializer has a statement with a call. -/
def lambdaField : Program :=
  Program.empty
    |>.addUnit { path := "A.java" }
    |>.append ⟨0⟩ (.type { kind := .classType, name := "A" }) .unknown
    |>.append ⟨1⟩ (.field { typeName := "Runnable", names := ["r"] }) .unknown
    |>.append ⟨2⟩ (.statement (.other "expression_statement")) .unknown
    |>.append ⟨3⟩ (.objectCreation { typeName := "A" }) .unknown
    |>.append ⟨1⟩ (.callable { kind := .constructor, name := "A" }) .unknown
    |>.append ⟨1⟩ (.callable { kind := .constructor, name := "A", parameters := [⟨"int", "i"⟩] })
      .unknown

theorem lambdaField_grown : lambdaField.Grown := by
  unfold lambdaField
  repeat' constructor

def lambdaFieldGraph : CallGraph where
  vertices := [⟨⟨5⟩, .constructor, "A()", some "A"⟩, ⟨⟨6⟩, .constructor, "A(int)", some "A"⟩]
  bySignature :=
    ⟨[("A()", [⟨⟨5⟩, .constructor, "A()", some "A"⟩]),
      ("A(int)", [⟨⟨6⟩, .constructor, "A(int)", some "A"⟩])]⟩
  links := [⟨⟨5⟩, ⟨5⟩, { kind := .objectCreation, call := ⟨4⟩, point := ⟨0, ⟨5⟩, ⟨2⟩⟩ }⟩,
    ⟨⟨6⟩, ⟨5⟩, { kind := .objectCreation, call := ⟨4⟩, point := ⟨1, ⟨6⟩, ⟨2⟩⟩ }⟩]
  reports := [⟨⟨4⟩, .objectCreation, some ⟨5⟩, .linked 1⟩,
    ⟨⟨4⟩, .objectCreation, some ⟨6⟩, .linked 1⟩]
  built := true

theorem lambdaField_built :
    build (.reference lambdaField {}) empty lambdaField.units = (lambdaFieldGraph, .ok ()) := by
  rw [build_eq lambdaField_grown.forest rfl (by decide)]
  cbv

theorem lambdaField_within : InInitializer lambdaField ⟨1⟩ ⟨2⟩ ⟨4⟩ where
  isType := by decide
  outermost := by decide
  member := by decide
  field := ⟨_, rfl, rfl⟩
  beneath := by decide
  direct := by decide

/-- Both constructors report the call in the statement, each at the field. -/
theorem initializer_calls_anchored_lambda :
    lambdaField.constructorsOf ⟨1⟩ = [⟨5⟩, ⟨6⟩] ∧
      (lambdaFieldGraph.reports.filter (·.call = ⟨4⟩)).map (·.caller) = [some ⟨5⟩, some ⟨6⟩] ∧
      lambdaFieldGraph.links.length = 2 ∧
      ∀ l ∈ lambdaFieldGraph.links, l.edge.call = ⟨4⟩ →
        l.edge.point.node = ⟨2⟩ ∧ l.edge.point.declaration ∈ lambdaField.constructorsOf ⟨1⟩ := by
  have constructors : lambdaField.constructorsOf ⟨1⟩ = [⟨5⟩, ⟨6⟩] := by decide
  have isCall : lambdaField.callKind? ⟨4⟩ = some .objectCreation := by decide
  obtain ⟨callers, -, -, links⟩ := initializer_calls_anchored lambdaField_grown rfl
    lambdaField_within (by decide) isCall lambdaField_built
  rw [constructors] at callers
  exact ⟨constructors, callers, rfl, links⟩

end JavaCallGraph.CallGraph
