import JavaCallGraph.Proofs.CallGraph.Linking

/-!
The scopes that the second pass of a build opens below a node.

Below a field the calls belong to the constructors that run its initializer, if there are any.
Below any other node the scope grows by the node itself, or not at all. In both cases the types of a
scope are the types around the node, up to the root at which the walk began.
-/

namespace JavaCallGraph.CallGraph

variable {s : Basis} {scope inner : Walk.Scope} {node : NodeId}

/-- The constructors that run the initializer of a field in a type. -/
def runners (s : Basis) (field : FieldDecl) (type? : Option NodeId) : List NodeId :=
  if field.isStatic || !s.settings.fieldInitializersToConstructors then []
  else
    match type? with
    | some type => s.program.constructorsOf type
    | none => []

theorem below_of_field {field : FieldDecl} (kind : s.program.kind? node = some (.field field)) :
    scope.below s.program node = scope := by
  simp [Walk.Scope.below, kind]

theorem openings_field_inside {field : FieldDecl}
    (kind : s.program.kind? node = some (.field field)) (inside : scope.currentCallable?.isSome) :
    scope.openings s.program node (linkRule s node scope) = [] := by
  simp [linkRule, kind, fieldDescend, inside, Walk.Scope.openings]

theorem openings_field_outside {field : FieldDecl}
    (kind : s.program.kind? node = some (.field field)) (outside : scope.currentCallable? = none) :
    scope.openings s.program node (linkRule s node scope) =
      match runners s field scope.currentType? with
      | [] => [scope]
      | first :: later => scope.inside first false :: later.map (scope.inside · true) := by
  have alone : scope.openings s.program node .children = [scope] := by
    simp [Walk.Scope.openings, below_of_field kind]
  simp only [linkRule, kind, fieldDescend, outside, Option.isSome_none, Bool.false_eq_true,
    if_false, runners]
  split
  · exact alone
  · cases scope.currentType? with
    | none => exact alone
    | some type =>
      dsimp only
      cases s.program.constructorsOf type with
      | nil => exact alone
      | cons first later => rfl

theorem openings_other (noField : ¬s.program.isField node) :
    scope.openings s.program node (linkRule s node scope) = [scope.below s.program node] := by
  have children : linkRule s node scope = .children := by
    unfold linkRule
    split
    · next field kind => exact absurd (Program.isField_iff.mpr ⟨field, kind⟩) noField
    · rfl
  rw [children]
  rfl

theorem passesOver_plain {p : Program} (plain : ¬p.isDeclaration node) (scope : Walk.Scope) :
    scope.passesOver p node = false := by
  simp [Walk.Scope.passesOver, plain]

theorem below_plain {p : Program} (plain : ¬p.isDeclaration node) (scope : Walk.Scope) :
    scope.below p node = scope := by
  unfold Walk.Scope.below
  split
  · next kind => simp [Program.isDeclaration, kind, NodeKind.isDeclaration] at plain
  · next kind => simp [Program.isDeclaration, kind, NodeKind.isDeclaration] at plain
  · rfl

/-- Outside of all declarations the scope stays as it is, below fields too. -/
theorem openings_plain (plain : ¬s.program.isDeclaration node) (untyped : scope.currentType? = none)
    (uncalled : scope.currentCallable? = none) :
    scope.openings s.program node (linkRule s node scope) = [scope] := by
  by_cases isField : s.program.isField node
  · obtain ⟨field, kind⟩ := Program.isField_iff.mp isField
    have unrun : runners s field scope.currentType? = [] := by
      rw [untyped, runners]
      split <;> rfl
    rw [openings_field_outside kind uncalled, unrun]
  · rw [openings_other isField, below_plain plain]

/-! ### Types -/

theorem types_below (p : Program) (scope : Walk.Scope) (node : NodeId) :
    (scope.below p node).types = if p.isType node then node :: scope.types else scope.types := by
  unfold Walk.Scope.below
  split
  · next d kind => rw [if_pos (Program.isType_iff.mpr ⟨d, kind⟩)]
  · next kind =>
    rw [if_neg]
    intro isType
    obtain ⟨d, kind'⟩ := Program.isType_iff.mp isType
    cases kind.symm.trans kind'
  · next noType _ =>
    rw [if_neg]
    intro isType
    obtain ⟨d, kind⟩ := Program.isType_iff.mp isType
    exact noType d kind

theorem types_of_opening (opened : inner ∈ scope.openings s.program node (linkRule s node scope)) :
    inner.types =
      if s.program.isType node then node :: scope.types else scope.types := by
  by_cases isField : s.program.isField node
  · obtain ⟨field, kind⟩ := Program.isField_iff.mp isField
    have noType : ¬s.program.isType node := by
      intro isType
      obtain ⟨d, kind'⟩ := Program.isType_iff.mp isType
      cases kind.symm.trans kind'
    rw [if_neg noType]
    cases callable : scope.currentCallable? with
    | some caller => simp [openings_field_inside kind, callable] at opened
    | none =>
      rw [openings_field_outside kind callable] at opened
      split at opened
      · rw [List.mem_singleton.mp opened]
      · rcases List.mem_cons.mp opened with rfl | later
        · rfl
        · obtain ⟨callable, -, rfl⟩ := List.mem_map.mp later
          rfl
  · rw [openings_other isField, List.mem_singleton] at opened
    rw [opened, types_below]

/-- The types of a scope are those around the node, up to the root of the walk. -/
theorem enclosingTypes_of_visited (forest : s.program.Forest) {depth : Nat} {root : NodeId}
    {place : NodeId × Walk.Scope}
    (visited : place ∈ Walk.visitsBelow s.program (linkRule s) depth {} root) :
    s.program.enclosingTypes place.1 = place.2.types ++ s.program.enclosingTypes root := by
  refine Walk.visitsBelow_forall
    (motive := fun n scope => s.program.enclosingTypes n =
      scope.types ++ s.program.enclosingTypes root) ?_ rfl place visited
  intro node scope sofar inner opened c child
  rw [types_of_opening opened, forest.enclosingTypes_child (forest.mem_children.mp child), sofar]
  split <;> rfl

/-- The innermost type of a scope is the innermost type around the node. -/
theorem enclosingType?_of_visited (forest : s.program.Forest) {units : List NodeId}
    (visited : (node, scope) ∈ sites s units) {type : NodeId}
    (current : scope.currentType? = some type) : s.program.enclosingType? node = some type := by
  obtain ⟨root, -, below⟩ := List.mem_flatMap.mp visited
  have types : s.program.enclosingTypes node = scope.types ++ s.program.enclosingTypes root :=
    enclosingTypes_of_visited forest below
  have first : scope.types.head? = some type := current
  rw [Program.enclosingType?, ← List.head?_filter, ← Program.enclosingTypes, types,
    List.head?_append, first, Option.some_or]

end JavaCallGraph.CallGraph
