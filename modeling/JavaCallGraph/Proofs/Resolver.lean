import JavaCallGraph.Proofs.Hierarchy
import JavaCallGraph.Resolver

/-!
What a resolved method call says about the declaration it names.

The resolver searches by name and arity. `Nearest` records the outcome of such a search from one
type: the declaration stands in the first type of the ancestry that has any method of that name and
arity. A search by signature from the same type ends in the same type as soon as equal signatures
mean equal names and arities.
-/

namespace JavaCallGraph

theorem bind_eq_ok {ε α β : Type} {first : Except ε α} {next : α → Except ε β} {b : β} :
    first >>= next = .ok b ↔ ∃ a, first = .ok a ∧ next a = .ok b := by
  cases first with
  | error e => simp [bind, Except.bind]
  | ok a => simp [bind, Except.bind]

namespace Program

/-- Every unit, nested ones included, comes from source. -/
def SourceOnly (p : Program) : Prop :=
  ∀ id u, p.kind? id = some (.unit u) → u.origin = .source

/-- Callables with equal signatures have the same name and as many parameters. -/
def SignaturesDetermine (p : Program) : Prop :=
  ∀ a b c d, p.callable? a = some c → p.callable? b = some d → c.signature = d.signature →
    c.name = d.name ∧ c.arity = d.arity

theorem sourceOnly_iff {p : Program} :
    p.SourceOnly ↔
      ∀ u ∈ p.ids.filterMap (fun id => (p.kind? id).bind (·.unit?)), u.origin = .source := by
  constructor
  · intro sources u listed
    obtain ⟨id, -, read⟩ := List.mem_filterMap.mp listed
    obtain ⟨k, kindAt, isUnit⟩ := Option.bind_eq_some_iff.mp read
    cases k <;> simp [NodeKind.unit?] at isUnit
    exact sources id u (isUnit ▸ kindAt)
  · intro all id u kindAt
    exact all u (List.mem_filterMap.mpr
      ⟨id, mem_ids.mpr (has_of_kind? kindAt), by simp [kindAt, NodeKind.unit?]⟩)

instance (p : Program) : Decidable p.SourceOnly := decidable_of_iff' _ sourceOnly_iff

theorem has_of_callable? {p : Program} {id : NodeId} {d : CallableDecl}
    (read : p.callable? id = some d) : p.has id := by
  obtain ⟨k, kindAt, -⟩ := Option.bind_eq_some_iff.mp read
  exact has_of_kind? kindAt

theorem signaturesDetermine_iff {p : Program} :
    p.SignaturesDetermine ↔
      ∀ c ∈ p.ids.filterMap p.callable?, ∀ d ∈ p.ids.filterMap p.callable?,
        c.signature = d.signature → c.name = d.name ∧ c.arity = d.arity := by
  constructor
  · intro determine c listed d listed' same
    obtain ⟨a, -, readA⟩ := List.mem_filterMap.mp listed
    obtain ⟨b, -, readB⟩ := List.mem_filterMap.mp listed'
    exact determine a b c d readA readB same
  · intro all a b c d readA readB
    exact all c (List.mem_filterMap.mpr ⟨a, mem_ids.mpr (has_of_callable? readA), readA⟩)
      d (List.mem_filterMap.mpr ⟨b, mem_ids.mpr (has_of_callable? readB), readB⟩)

instance (p : Program) : Decidable p.SignaturesDetermine :=
  decidable_of_iff' _ signaturesDetermine_iff

/-- Whether a node is a callable of a given name and arity. -/
def hasShape (p : Program) (name : String) (arity : Nat) (m : NodeId) : Bool :=
  (p.callable? m).any fun d => d.name == name && d.arity == arity

theorem hasShape_iff {p : Program} {name : String} {arity : Nat} {m : NodeId} :
    p.hasShape name arity m ↔ ∃ d, p.callable? m = some d ∧ d.name = name ∧ d.arity = arity := by
  simp [hasShape, Option.any_eq_true]

theorem signature?_eq_some {p : Program} {id : NodeId} {signature : String} :
    p.signature? id = some signature ↔ ∃ d, p.callable? id = some d ∧ d.signature = signature := by
  simp [signature?]

/-- Callables of equal signatures have the same shapes. -/
theorem SignaturesDetermine.hasShape {p : Program} (determine : p.SignaturesDetermine)
    {name : String} {arity : Nat} {a b : NodeId} (same : p.signature? a = p.signature? b)
    (shape : p.hasShape name arity b) : p.hasShape name arity a := by
  obtain ⟨d, readB, named, sized⟩ := hasShape_iff.mp shape
  obtain ⟨c, readA, signature⟩ := signature?_eq_some.mp
    (same.trans (signature?_eq_some.mpr ⟨d, readB, rfl⟩))
  obtain ⟨names, sizes⟩ := determine a b c d readA readB signature
  exact hasShape_iff.mpr ⟨c, readA, names.trans named, sizes.trans sized⟩

theorem SourceOnly.unit? {p : Program} (sources : p.SourceOnly) {id : NodeId} {u : CompilationUnit}
    (lies : p.unit? id = some u) : u.origin = .source := by
  obtain ⟨unit, -, read⟩ := Option.bind_eq_some_iff.mp lies
  obtain ⟨kind, kindAt, isUnit⟩ := Option.bind_eq_some_iff.mp read
  cases kind <;> simp [NodeKind.unit?] at isUnit
  exact sources unit u (isUnit ▸ kindAt)

theorem simpleName?_isSome_of_isType {p : Program} {t : NodeId} (isType : p.isType t) :
    (p.simpleName? t).isSome := by
  obtain ⟨decl, kind⟩ := isType_iff.mp isType
  simp [simpleName?, kind, NodeKind.simpleName?]

theorem Forest.ownerName?_member {p : Program} (forest : p.Forest) {t m : NodeId}
    (isType : p.isType t) (member : m ∈ p.children t) : p.ownerName? m = p.simpleName? t := by
  have above := forest.mem_children.mp member
  have named := simpleName?_isSome_of_isType isType
  rw [ownerName?, nearestNamedAncestor?, forest.find?_ancestors_child above, if_pos named]
  rfl

theorem Forest.enclosingType?_member {p : Program} (forest : p.Forest) {t m : NodeId}
    (isType : p.isType t) (member : m ∈ p.children t) : p.enclosingType? m = some t := by
  have above := forest.mem_children.mp member
  rw [enclosingType?, forest.find?_ancestors_child above, if_pos isType]

/-- Members of a type with equal signatures count as the same declaration. -/
theorem Forest.sameDeclaration_members {p : Program} (forest : p.Forest) {t m d : NodeId}
    {signature : String} (isType : p.isType t) (first : m ∈ p.children t)
    (second : d ∈ p.children t) (signed : p.signature? m = some signature) (signed' : p.signature? d = some signature) :
    p.sameDeclaration m d := by
  have named := simpleName?_isSome_of_isType isType
  simp [sameDeclaration, signed, signed', forest.ownerName?_member isType first,
    forest.ownerName?_member isType second, named]

theorem sameDeclaration_refl (p : Program) (a : NodeId) : p.sameDeclaration a a := by
  simp [sameDeclaration]

theorem sameDeclaration_symm {p : Program} {a b : NodeId} (same : p.sameDeclaration a b) :
    p.sameDeclaration b a := by
  simp only [sameDeclaration, Bool.or_eq_true, Bool.and_eq_true, beq_iff_eq] at same ⊢
  rcases same with rfl | ⟨⟨⟨signed, signatures⟩, owned⟩, owners⟩
  · exact .inl rfl
  · exact .inr ⟨⟨⟨signatures ▸ signed, signatures.symm⟩, owners ▸ owned⟩, owners.symm⟩

theorem sameDeclaration_trans {p : Program} {a b c : NodeId} (first : p.sameDeclaration a b)
    (second : p.sameDeclaration b c) : p.sameDeclaration a c := by
  simp only [sameDeclaration, Bool.or_eq_true, Bool.and_eq_true, beq_iff_eq] at first second ⊢
  rcases first with rfl | ⟨⟨⟨signed, signatures⟩, owned⟩, owners⟩
  · exact second
  · rcases second with rfl | ⟨⟨⟨-, signatures'⟩, -⟩, owners'⟩
    · exact .inr ⟨⟨⟨signed, signatures⟩, owned⟩, owners⟩
    · exact .inr ⟨⟨⟨signed, signatures.trans signatures'⟩, owned⟩, owners.trans owners'⟩

end Program

namespace Resolver

variable {h : Hierarchy} {typeOf : NodeId → Except Error NodeId}

theorem orUnresolved_eq_ok {α : Type} {reason : String} {found : Option α} {a : α} :
    orUnresolved reason found = .ok a ↔ found = some a := by
  cases found <;> simp [orUnresolved, unresolved]

/-! ### Overloads -/

theorem firstMax_mem {value : NodeId → Nat} {xs : List NodeId} {x : NodeId}
    (first : firstMax value xs = some x) : x ∈ xs := by
  cases xs with
  | nil => cases first
  | cons y rest =>
    rw [firstMax, Option.some.injEq] at first
    subst first
    refine List.foldlRecOn (motive := (· ∈ y :: rest)) rest _ (by simp) ?_
    intro best kept z member
    split
    · exact List.mem_cons_of_mem _ member
    · exact kept

theorem bestCandidate_mem {call d : NodeId} {candidates : List NodeId}
    (best : bestCandidate h typeOf call candidates = .ok (some d)) : d ∈ candidates := by
  unfold bestCandidate at best
  split at best
  · cases best
  · simpa using best.symm
  · obtain ⟨types, -, chosen⟩ := bind_eq_ok.mp best
    exact firstMax_mem (Except.ok.inj chosen)

/-! ### The nearest type with a method of the right shape -/

/-- `decl` is a method of the given name and arity, declared in the first type of the ancestry of
`root` that has any such method. -/
def Nearest (h : Hierarchy) (name : String) (arity : Nat) (root decl : NodeId) : Prop :=
  ∃ nearer owner farther, h.ancestry root = nearer ++ owner :: farther ∧
    decl ∈ h.program.methodsOf owner ∧ h.program.hasShape name arity decl ∧
      ∀ t ∈ nearer, ∀ m ∈ h.program.methodsOf t, ¬h.program.hasShape name arity m

/-- The candidates are the methods of the right shape in the first type that has any. -/
theorem methodCandidates?_eq_some {name : String} {arity : Nat} {root : NodeId}
    {candidates : List NodeId} (found : methodCandidates? h name arity root = some candidates) :
    ∃ nearer owner farther, h.ancestry root = nearer ++ owner :: farther ∧ candidates ≠ [] ∧
      candidates = (h.program.methodsOf owner).filter (h.program.hasShape name arity) ∧
      ∀ t ∈ nearer, ∀ m ∈ h.program.methodsOf t, ¬h.program.hasShape name arity m := by
  obtain ⟨nearer, owner, farther, split, here, before⟩ := List.findSome?_eq_some_iff.mp found
  refine ⟨nearer, owner, farther, split, ?_⟩
  dsimp only at here
  split at here
  · cases here
  · rename_i some_
    cases here
    refine ⟨fun empty => some_ (List.isEmpty_iff.mpr empty), rfl, ?_⟩
    intro t nearby m method match_
    have none := before t nearby
    simp only [ite_eq_left_iff, reduceCtorEq, imp_false, not_not, List.isEmpty_iff,
      List.filter_eq_nil_iff] at none
    exact none m method match_

theorem nearest_of_methodCandidates? {name : String} {arity : Nat} {root d : NodeId}
    {candidates : List NodeId} (found : methodCandidates? h name arity root = some candidates)
    (member : d ∈ candidates) : Nearest h name arity root d := by
  obtain ⟨nearer, owner, farther, split, -, rfl, before⟩ := methodCandidates?_eq_some found
  obtain ⟨declared, shape⟩ := List.mem_filter.mp member
  exact ⟨nearer, owner, farther, split, declared, shape, before⟩

/-- A search by signature from the same type succeeds. -/
theorem Nearest.findBySignature?_isSome {name : String} {arity : Nat} {root d : NodeId}
    (nearest : Nearest h name arity root d) : (h.findBySignature? root d).isSome := by
  obtain ⟨nearer, owner, farther, split, declared, -, -⟩ := nearest
  exact h.findBySignature?_isSome (by simp [split]) declared

/-- A search by signature from the same type finds the declaration again, up to identity of
declarations. -/
theorem Nearest.findBySignature? (forest : h.program.Forest) (typed : h.Typed)
    (determine : h.program.SignaturesDetermine) {name : String} {arity : Nat} {root d : NodeId}
    (isType : h.program.isType root) (nearest : Nearest h name arity root d) :
    ∃ m, h.findBySignature? root d = some m ∧ h.program.sameDeclaration m d := by
  obtain ⟨m, found⟩ := Option.isSome_iff_exists.mp nearest.findBySignature?_isSome
  obtain ⟨nearer, owner, farther, split, declared, shape, before⟩ := nearest
  refine ⟨m, found, ?_⟩
  simp only [Hierarchy.findBySignature?, Option.bind_eq_bind, Option.bind_eq_some_iff] at found
  obtain ⟨signature, signed, found⟩ := found
  -- No type before the owner has the signature, so the search ends in the owner.
  have skipped : nearer.findSome? (h.methodWithSignature? · signature) = none := by
    rw [List.findSome?_eq_none_iff]
    intro t nearby
    cases early : h.methodWithSignature? t signature with
    | none => rfl
    | some x =>
      obtain ⟨method, signedX⟩ := Hierarchy.methodWithSignature?_spec early
      exact absurd (determine.hasShape (signedX.trans signed.symm) shape) (before t nearby x method)
  rw [split, List.findSome?_append, skipped, Option.none_or, List.findSome?_cons] at found
  have owned : (h.methodWithSignature? owner signature).isSome := by
    rw [Hierarchy.methodWithSignature?, List.find?_isSome]
    exact ⟨d, declared, by simp [signed]⟩
  obtain ⟨x, here⟩ := Option.isSome_iff_exists.mp owned
  rw [here] at found
  cases found
  obtain ⟨method, signedM⟩ := Hierarchy.methodWithSignature?_spec here
  have ownerIsType := typed.ancestry isType owner (by simp [split])
  exact forest.sameDeclaration_members ownerIsType (List.mem_filter.mp method).1
    (List.mem_filter.mp declared).1 signedM signed

/-! ### Static types and search roots are types -/

theorem isType_of_enclosingType {node t : NodeId} (found : enclosingType h node = .ok t) :
    h.program.isType t := by
  rw [enclosingType, orUnresolved_eq_ok] at found
  exact List.find?_some found

theorem isType_of_resolveTypeName (typed : h.Typed) {context t : NodeId} {name : String}
    (found : resolveTypeName h context name = .ok t) : h.program.isType t :=
  typed.resolveTypeName? (orUnresolved_eq_ok.mp found)

theorem isType_of_qualifiedSuperRoot? (typed : h.Typed) {named t : NodeId}
    (isType : h.program.isType named)
    (found : qualifiedSuperRoot? h.program h.parentOf? named = some t) : h.program.isType t := by
  unfold qualifiedSuperRoot? at found
  split at found
  · split at found
    · cases found
      exact isType
    · exact typed.parentOf? found
  · cases found

theorem isType_of_returnType (typed : h.Typed) {resolution : Resolution} {t : NodeId}
    (found : returnType h resolution = .ok t) : h.program.isType t := by
  unfold returnType at found
  split at found
  · split at found
    · exact isType_of_resolveTypeName typed found
    · cases found
    · cases found
  · cases found

theorem isType_of_accessType (typed : h.Typed) {node t : NodeId} {field : String}
    (found : accessType h typeOf node field = .ok t) : h.program.isType t := by
  obtain ⟨object, -, found⟩ := bind_eq_ok.mp found
  obtain ⟨owner, -, found⟩ := bind_eq_ok.mp found
  split at found
  · exact isType_of_resolveTypeName typed found
  · cases found

theorem isType_of_staticTypeWith (typed : h.Typed) {node t : NodeId}
    (found : staticTypeWith h typeOf node = .ok t) : h.program.isType t := by
  obtain ⟨n, -, found⟩ := bind_eq_ok.mp found
  split at found
  · split at found <;> exact isType_of_resolveTypeName typed found
  · exact isType_of_enclosingType found
  · exact isType_of_resolveTypeName typed found
  · exact isType_of_accessType typed found
  · exact isType_of_resolveTypeName typed found
  · exact isType_of_resolveTypeName typed found
  · exact isType_of_resolveTypeName typed found
  · obtain ⟨resolution, -, found⟩ := bind_eq_ok.mp found
    exact isType_of_returnType typed found
  · cases found

theorem isType_of_staticType (typed : h.Typed) {node t : NodeId}
    (found : staticType h node = .ok t) : h.program.isType t := by
  rw [staticType, staticTypeWithin] at found
  exact isType_of_staticTypeWith typed found

theorem isType_of_searchRoots (typed : h.Typed) {call : NodeId} {scope : CallScope}
    {roots : List NodeId} (found : searchRoots h (staticType h) call scope = .ok roots) :
    ∀ r ∈ roots, h.program.isType r := by
  intro r member
  cases scope with
  | implicit =>
    cases found
    exact (List.mem_filter.mp member).2
  | this =>
    obtain ⟨t, enclosing, ⟨⟩⟩ := bind_eq_ok.mp found
    rw [List.mem_singleton.mp member]
    exact isType_of_enclosingType enclosing
  | qualifiedThis name =>
    obtain ⟨t, named, ⟨⟩⟩ := bind_eq_ok.mp found
    rw [List.mem_singleton.mp member]
    exact isType_of_resolveTypeName typed named
  | super =>
    obtain ⟨t, -, found⟩ := bind_eq_ok.mp found
    obtain ⟨parent, above, ⟨⟩⟩ := bind_eq_ok.mp found
    rw [List.mem_singleton.mp member]
    exact typed.parentOf? (orUnresolved_eq_ok.mp above)
  | qualifiedSuper name =>
    obtain ⟨named, resolved, found⟩ := bind_eq_ok.mp found
    obtain ⟨root, above, ⟨⟩⟩ := bind_eq_ok.mp found
    rw [List.mem_singleton.mp member]
    exact isType_of_qualifiedSuperRoot? typed (isType_of_resolveTypeName typed resolved)
      (orUnresolved_eq_ok.mp above)
  | expression receiver =>
    obtain ⟨t, receiverType, ⟨⟩⟩ := bind_eq_ok.mp found
    rw [List.mem_singleton.mp member]
    exact isType_of_staticType typed receiverType

/-! ### Resolved method calls -/

theorem eq_of_report {d decl : NodeId} (reported : report h decl = .ok (.declaration d)) :
    d = decl := by
  unfold report at reported
  split at reported
  · cases signature : orUnresolved ("No signature for " ++ h.program.describe decl)
        (h.program.qualifiedSignature? decl) <;> simp [signature, Except.map] at reported
  · cases reported
    rfl

theorem report_of_sourceOnly (sources : h.program.SourceOnly) (decl : NodeId) :
    report h decl = .ok (.declaration decl) := by
  unfold report
  rw [if_neg]
  intro library
  obtain ⟨u, lies, origin⟩ := (Option.any_eq_true _ _).mp library
  rw [sources.unit? lies] at origin
  cases origin

/-- A resolved method call names the nearest declaration of its shape from one of the types at
which its search starts. -/
theorem resolveMethodCall_spec {call : NodeId} {c : MethodCall} {resolution : Resolution}
    (resolved : resolveMethodCall h typeOf call c = .ok resolution) :
    ∃ roots root decl, searchRoots h typeOf call c.scope = .ok roots ∧ root ∈ roots ∧
      Nearest h c.name c.arguments.length root decl ∧ report h decl = .ok resolution := by
  obtain ⟨roots, started, resolved⟩ := bind_eq_ok.mp resolved
  obtain ⟨best, chosen, resolved⟩ := bind_eq_ok.mp resolved
  obtain ⟨decl, found, reported⟩ := bind_eq_ok.mp resolved
  rw [orUnresolved_eq_ok.mp found] at chosen
  have member := bestCandidate_mem chosen
  cases searched : roots.findSome? (methodCandidates? h c.name c.arguments.length) with
  | none => simp [searched] at member
  | some candidates =>
    rw [searched, Option.getD_some] at member
    obtain ⟨root, started', candidatesAt⟩ := List.exists_of_findSome?_eq_some searched
    exact ⟨roots, root, decl, started, started', nearest_of_methodCandidates? candidatesAt member,
      reported⟩

theorem resolve_methodCall {call : NodeId} {c : MethodCall}
    (kind : h.program.kind? call = some (.methodCall c)) :
    resolve h call = resolveMethodCall h (staticType h) call c := by
  obtain ⟨n, read, kindOf⟩ := Option.map_eq_some_iff.mp kind
  simp only [resolve, resolveWith, Program.node, read, bind, Except.bind, kindOf]

end Resolver

end JavaCallGraph
