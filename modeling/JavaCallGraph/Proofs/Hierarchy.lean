import JavaCallGraph.Hierarchy
import JavaCallGraph.Proofs.Program.Lineage

/-!
The hierarchy of a program holds type declarations only, and a search by signature finds what the
ancestry of a type declares.
-/

namespace JavaCallGraph

/-! ### Closures -/

namespace Closure

variable {next : NodeId → List NodeId}

theorem mem_serve_of_seen {steps : Nat} {queue seen : List NodeId} {x : NodeId}
    (member : x ∈ seen) : x ∈ serve next steps queue seen := by
  induction steps generalizing queue seen with
  | zero => exact member
  | succ steps ih =>
    cases queue with
    | nil => exact member
    | cons y queue => exact ih (List.mem_append_left _ member)

/-- What holds of the start and of everything that is led to holds of the whole closure. -/
theorem serve_forall {motive : NodeId → Prop} (step : ∀ x, ∀ y ∈ next x, motive y) {steps : Nat}
    {queue seen : List NodeId} (start : ∀ x ∈ seen, motive x) :
    ∀ x ∈ serve next steps queue seen, motive x := by
  induction steps generalizing queue seen with
  | zero => exact start
  | succ steps ih =>
    cases queue with
    | nil => exact start
    | cons y queue =>
      refine ih fun x member => ?_
      rcases List.mem_append.mp member with old | new
      · exact start x old
      · exact step y x (mem_fresh.mp new).1

theorem prefix_drain (steps : Nat) (queue seen : List NodeId) :
    seen <+: drain next steps queue seen := by
  induction steps generalizing queue seen with
  | zero => exact List.prefix_rfl
  | succ steps ih =>
    cases queue with
    | nil => exact List.prefix_rfl
    | cons x queue =>
      rw [drain]
      split
      · exact ih queue seen
      · exact (List.prefix_append seen [x]).trans (ih _ _)

end Closure

namespace Hierarchy

/-- Names and supertypes lead to type declarations. -/
structure Typed (h : Hierarchy) : Prop where
  named : ∀ name, ∀ t ∈ h.typesByName.get name, h.program.isType t
  supertype : ∀ t, ∀ s ∈ h.supertypes.get t, h.program.isType s

theorem mem_of_choose {p : Program} {context t : NodeId} {candidates : List NodeId}
    (chosen : choose p context candidates = some t) : t ∈ candidates := by
  unfold choose at chosen
  split at chosen
  · cases chosen
  · simpa using chosen.symm
  · next candidates _ _ =>
    -- each of the four preferences picks out of the candidates
    simp only [Option.orElse_eq_orElse, Option.orElse_eq_or, Option.or_eq_some_iff] at chosen
    rcases chosen with found | ⟨-, found | ⟨-, found | ⟨-, found⟩⟩⟩
    · exact List.mem_of_find?_eq_some found
    · exact List.mem_of_find?_eq_some found
    · exact List.mem_of_find?_eq_some found
    · exact List.mem_of_head? found

theorem mem_types_of_named {p : Program} {name : String} {t : NodeId}
    (named : t ∈ (build p).typesByName.get name) : t ∈ (build p).types := by
  simp only [build, Index.get_ofPairs, List.mem_map, List.mem_filter, namedTypes,
    List.mem_filterMap] at named
  obtain ⟨pair, ⟨⟨t', kept, entry⟩, -⟩, rfl⟩ := named
  obtain ⟨decl, -, rfl⟩ := Option.map_eq_some_iff.mp entry
  exact List.mem_filter.mpr kept

theorem mem_supertypesOf {p : Program} {t s : NodeId} : s ∈ (build p).supertypesOf t ↔
    (t, s) ∈ supertypePairs p (build p).typesByName (build p).types := by
  have pairs : (build p).supertypes =
      Index.ofPairs (supertypePairs p (build p).typesByName (build p).types) := rfl
  rw [supertypesOf, pairs, Index.get_ofPairs]
  simp

/-- Both ends of a step to a direct supertype are listed types. -/
theorem mem_types_of_supertype {p : Program} {t s : NodeId}
    (step : s ∈ (build p).supertypesOf t) : t ∈ (build p).types ∧ s ∈ (build p).types := by
  obtain ⟨t', listed, declared⟩ := List.mem_flatMap.mp (mem_supertypesOf.mp step)
  obtain ⟨name, -, entry⟩ := List.mem_filterMap.mp declared
  split at entry
  · next s' chosen =>
    split at entry
    · cases entry
    · cases entry
      exact ⟨listed, mem_types_of_named (mem_of_choose chosen)⟩
  · cases entry

theorem build_typed (p : Program) : (build p).Typed := by
  have isType : ∀ t ∈ (build p).types, p.isType t := fun t listed => (List.mem_filter.mp listed).2
  constructor
  · exact fun name t named => isType t (mem_types_of_named named)
  · exact fun t s step => isType s (mem_types_of_supertype step).2

variable {h : Hierarchy}

theorem Typed.resolveTypeName? (typed : h.Typed) {context t : NodeId} {name : String}
    (resolved : h.resolveTypeName? context name = some t) : h.program.isType t :=
  typed.named _ t (mem_of_choose resolved)

theorem Typed.parentOf? (typed : h.Typed) {type parent : NodeId}
    (above : h.parentOf? type = some parent) : h.program.isType parent := by
  simp only [Hierarchy.parentOf?, Option.bind_eq_bind, Option.bind_eq_some_iff] at above
  obtain ⟨decl, -, name, -, first, head, kept⟩ := above
  split at kept
  · cases kept
    exact typed.supertype _ _ (List.mem_of_head? head)
  · cases kept

/-! ### Ancestry -/

theorem Typed.superclassChain (typed : h.Typed) {bound : Nat} {seen : List NodeId}
    {start : Option NodeId} (old : ∀ t ∈ seen, h.program.isType t)
    (first : ∀ t, start = some t → h.program.isType t) :
    ∀ t ∈ h.superclassChain bound seen start, h.program.isType t := by
  induction bound generalizing seen start with
  | zero => exact old
  | succ bound ih =>
    cases start with
    | none => exact old
    | some s =>
      rw [Hierarchy.superclassChain]
      split
      · exact old
      · refine ih ?_ fun t above => typed.parentOf? above
        intro t member
        rcases List.mem_append.mp member with member | member
        · exact old t member
        · rw [List.mem_singleton.mp member]
          exact first s rfl

theorem Typed.ancestry (typed : h.Typed) {type : NodeId} (isType : h.program.isType type) :
    ∀ t ∈ h.ancestry type, h.program.isType t := by
  refine Closure.serve_forall typed.supertype (typed.superclassChain (by simp) ?_)
  rintro t ⟨⟩
  exact isType

/-- The listing of subtypes starts with the type itself. -/
theorem singleton_prefix_subclassesOf (h : Hierarchy) (type : NodeId) :
    [type] <+: h.subclassesOf type :=
  Closure.prefix_drain _ ([] ++ h.subtypes.get type) [type]

theorem mem_subclassesOf_self (h : Hierarchy) (type : NodeId) : type ∈ h.subclassesOf type :=
  (h.singleton_prefix_subclassesOf type).subset (List.mem_singleton_self type)

/-! ### Methods by signature -/

theorem methodWithSignature?_spec {type m : NodeId} {signature : String}
    (found : h.methodWithSignature? type signature = some m) :
    m ∈ h.program.methodsOf type ∧ h.program.signature? m = some signature := by
  refine ⟨List.mem_of_find?_eq_some found, ?_⟩
  simpa using List.find?_some found

theorem findBySignature?_signature {type decl m : NodeId}
    (found : h.findBySignature? type decl = some m) :
    h.program.signature? m = h.program.signature? decl := by
  simp only [findBySignature?, Option.bind_eq_bind, Option.bind_eq_some_iff] at found
  obtain ⟨signature, signed, found⟩ := found
  obtain ⟨t, -, found⟩ := List.exists_of_findSome?_eq_some found
  rw [signed, (methodWithSignature?_spec found).2]

/-- A declaration in the ancestry of a type is found again there, or another with its signature. -/
theorem findBySignature?_isSome {type t decl : NodeId} (above : t ∈ h.ancestry type)
    (member : decl ∈ h.program.methodsOf t) : (h.findBySignature? type decl).isSome := by
  have callable : (h.program.callable? decl).isSome := by
    have kept := (List.mem_filter.mp member).2
    cases read : h.program.callable? decl with
    | none => simp [read] at kept
    | some d => rfl
  obtain ⟨d, read⟩ := Option.isSome_iff_exists.mp callable
  have signed : h.program.signature? decl = some d.signature := by simp [Program.signature?, read]
  simp only [findBySignature?, signed, Option.bind_eq_bind, Option.bind_some,
    List.findSome?_isSome_iff]
  refine ⟨t, above, ?_⟩
  rw [methodWithSignature?, List.find?_isSome]
  exact ⟨decl, member, by simp [signed]⟩

/-- What holds of a declaration alone and stays true when a method with its signature joins holds
of the declaration with all that override it. -/
theorem overriddenBy_rec {motive : List NodeId → Prop} {decl : NodeId} (alone : motive [decl])
    (join : ∀ signature, h.program.signature? decl = some signature → ∀ sub m,
      h.methodWithSignature? sub signature = some m → ∀ result, motive result →
        motive (result ++ [m])) : motive (h.overriddenBy decl) := by
  unfold overriddenBy
  split
  · next owner signature _ signed =>
    refine List.foldlRecOn _ _ alone fun result kept sub _ => ?_
    split
    · next m found =>
      split
      · exact kept
      · exact join signature signed sub m found result kept
    · exact kept
  · exact alone

theorem mem_overriddenBy_self (h : Hierarchy) (decl : NodeId) : decl ∈ h.overriddenBy decl :=
  overriddenBy_rec (motive := fun result => decl ∈ result) (by simp)
    fun _ _ _ _ _ _ kept => List.mem_append_left _ kept

theorem overriddenBy_signature {decl m : NodeId} (member : m ∈ h.overriddenBy decl) :
    h.program.signature? m = h.program.signature? decl := by
  refine overriddenBy_rec
    (motive := fun result => ∀ x ∈ result, h.program.signature? x = h.program.signature? decl)
    (by simp) ?_ m member
  intro signature signed sub m found result kept x joined
  rcases List.mem_append.mp joined with old | new
  · exact kept x old
  · rw [List.mem_singleton.mp new, signed, (methodWithSignature?_spec found).2]

end Hierarchy

end JavaCallGraph
