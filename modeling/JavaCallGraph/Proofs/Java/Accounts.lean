import JavaCallGraph.Proofs.Java.NodeTypes

/-!
Accounts of calls.

Of the calls in a node some are kept and the others stand in parts that are left out. An account
lists those parts, so that no call is missing and none is there twice. In the names, types and
parameters of a declaration nothing is kept, and nothing is lost but what stands in annotations and in
the values of variadic parameters.
-/

namespace JavaCallGraph.Java

/-! ### Parts that are left out -/

/-- A part of a node that is not lowered. -/
inductive Located.LeftOut : Located → Prop where
  | noted {n : Located} {c : Syntax} : c.kind = "annotation" → LeftOut (n.below c)
  | constantBody {n : Located} {c : Syntax} : n.kind = "enum_constant" → c.field = some "body" →
    LeftOut (n.below c)
  /-- `e` in `e.new T()` -/
  | creationQualifier {n : Located} {c : Syntax} : n.kind = "object_creation_expression" →
    c.field = none → c.kind ∈ NodeTypes.expressionKinds → LeftOut (n.below c)
  /-- `e` in `e.super()` -/
  | invocationQualifier {n : Located} {c : Syntax} : n.kind = "explicit_constructor_invocation" →
    c.field = some "object" → LeftOut (n.below c)
  /-- `e` in `e.super.m()` -/
  | superQualifier {n : Located} {c : Syntax} : n.kind = "method_invocation" →
    n.isQualifiedSuper → c.field = some "object" → LeftOut (n.below c)
  /-- `e` in `e.this` -/
  | thisQualifier {n : Located} {c : Syntax} : n.isQualifiedThis → c.field = some "object" →
    LeftOut (n.below c)
  | interpolation {n : Located} {c : Syntax} : n.kind = "string_literal" →
    c.kind = "string_interpolation" → LeftOut (n.below c)
  /-- `e` in `void m(T... x = e)` -/
  | variadicValue {n : Located} {c : Syntax} : n.kind = "variable_declarator" →
    (n.parent?.any fun p => p.kind == "spread_parameter") → c.field = some "value" →
    LeftOut (n.below c)

/-! ### Accounts -/

/-- All calls are kept or stand in parts of the node that are left out, each once. -/
def Accounts (n : Located) (all kept : List (CallKind × Span)) : Prop :=
  ∃ lost : List Located, (∀ m ∈ lost, n.Within m ∧ m.LeftOut) ∧
    all.Perm (kept ++ lost.flatMap (·.node.calls))

namespace Accounts

variable {n m : Located} {all all' kept kept' : List (CallKind × Span)}

theorem refl (n : Located) (all : List (CallKind × Span)) : Accounts n all all :=
  ⟨[], List.forall_mem_nil _, by rw [List.flatMap_nil, List.append_nil]⟩

theorem mono (accounts : Accounts m all kept) (within : n.Within m) : Accounts n all kept := by
  obtain ⟨lost, out, perm⟩ := accounts
  exact ⟨lost, fun l member => ⟨within.trans (out l member).1, (out l member).2⟩, perm⟩

theorem leftOut (out : n.LeftOut) : Accounts n n.node.calls [] := by
  refine ⟨[n], fun m member => ?_, by rw [List.flatMap_singleton, List.nil_append]⟩
  rw [List.mem_singleton.mp member]
  exact ⟨.refl, out⟩

theorem perm (accounts : Accounts n all kept) (before : all'.Perm all) (after : kept.Perm kept') :
    Accounts n all' kept' := by
  obtain ⟨lost, out, split⟩ := accounts
  exact ⟨lost, out, (before.trans split).trans (after.append_right _)⟩

theorem append (first : Accounts n all kept) (second : Accounts n all' kept') :
    Accounts n (all ++ all') (kept ++ kept') := by
  obtain ⟨lost, out, split⟩ := first
  obtain ⟨lost', out', split'⟩ := second
  refine ⟨lost ++ lost', List.forall_mem_append.mpr ⟨out, out'⟩, (split.append split').trans ?_⟩
  rw [List.flatMap_append, List.append_assoc, List.append_assoc]
  refine List.Perm.append_left kept ?_
  rw [← List.append_assoc, ← List.append_assoc]
  exact List.perm_append_comm.append_right _

theorem flatMap {α : Type} {items : List α} {f g : α → List (CallKind × Span)}
    (each : ∀ x ∈ items, Accounts n (f x) (g x)) :
    Accounts n (items.flatMap f) (items.flatMap g) := by
  induction items with
  | nil => exact refl n []
  | cons x rest ih =>
    obtain ⟨here, later⟩ := List.forall_mem_cons.mp each
    rw [List.flatMap_cons, List.flatMap_cons]
    exact here.append (ih later)

theorem nothing {nodes : List Located} (each : ∀ c ∈ nodes, Accounts n c.node.calls []) :
    Accounts n (nodes.flatMap (·.node.calls)) [] := by
  have accounts := flatMap (g := fun _ => []) each
  rwa [List.flatMap_eq_nil_iff.mpr fun _ _ => rfl] at accounts

/-- The calls of some nodes, and then those of the others. -/
theorem filter {nodes : List Located} (test : Located → Bool)
    (first : Accounts n ((nodes.filter test).flatMap (·.node.calls)) kept)
    (second : Accounts n ((nodes.filter (!test ·)).flatMap (·.node.calls)) kept') :
    Accounts n (nodes.flatMap (·.node.calls)) (kept ++ kept') := by
  refine (first.append second).perm ?_ (.refl _)
  rw [← List.flatMap_append]
  exact (List.filter_append_perm test nodes).symm.flatMap_right _

/-- The calls of nodes in some fields, field by field, where those of the others are left out. -/
theorem byField (nodes : List Located) (kept : String → Located → List (CallKind × Span))
    {fields : List String} (distinct : fields.Nodup)
    (each : ∀ c ∈ nodes, ∀ f ∈ fields, c.node.field = some f → Accounts n c.node.calls (kept f c))
    (others : ∀ c ∈ nodes, c.node.field ∉ fields.map some → Accounts n c.node.calls []) :
    Accounts n (nodes.flatMap (·.node.calls))
      (fields.flatMap fun f => (nodes.filter (·.node.field == some f)).flatMap (kept f)) := by
  induction fields generalizing nodes with
  | nil => exact .nothing fun c member => others c member List.not_mem_nil
  | cons f rest ih =>
    obtain ⟨new, distinct⟩ := List.nodup_cons.mp distinct
    rw [List.flatMap_cons]
    refine filter (·.node.field == some f) (.flatMap fun c member => ?_) ?_
    · obtain ⟨among, inField⟩ := List.mem_filter.mp member
      exact each c among f List.mem_cons_self (eq_of_beq inField)
    -- in the other fields there is the same among the other nodes
    · have same : ∀ g ∈ rest, (nodes.filter (!·.node.field == some f)).filter
          (·.node.field == some g) = nodes.filter (·.node.field == some g) := by
        intro g listed
        rw [List.filter_filter]
        refine List.filter_congr fun c _ => ?_
        have apart : g ≠ f := fun same => new (same ▸ listed)
        by_cases inField : c.node.field = some g
        · simp [inField, apart]
        · simp [inField]
      have later := ih (nodes.filter (!·.node.field == some f)) distinct ?_ ?_
      · rwa [List.flatMap_congr fun g listed => congrArg (List.flatMap (kept g)) (same g listed)]
          at later
      · intro c member g listed
        exact each c (List.mem_filter.mp member).1 g (List.mem_cons_of_mem f listed)
      · intro c member other
        obtain ⟨among, apart⟩ := List.mem_filter.mp member
        refine others c among ?_
        rw [List.map_cons, List.mem_cons, not_or]
        exact ⟨by simpa using apart, other⟩

end Accounts

/-! ### Parts without calls -/

namespace NodeTypes

/-- Whether a node of the kind is an annotation, or calls stand in it in annotations only. -/
def isAside (kind : String) : Bool := (aside.lookup kind).isSome || kind == "annotation"

/-- Whether all children of a node of the kind stand aside, but for at most one in each of some
fields. -/
def takes (fields : List String) (kind : String) : Bool :=
  (grammar.lookup kind).any fun slots => slots.all fun s =>
    bif (fields.map some).contains s.field then !s.isMultiple else s.kinds.all isAside

/-- Whether at most one child of a node of the kind stands in a field. -/
def isSingle (field kind : String) : Bool :=
  (grammar.lookup kind).any fun slots => slots.all fun s => s.field != some field || !s.isMultiple

theorem isSingle_of_takes {fields : List String} {field kind : String} (closed : takes fields kind)
    (member : field ∈ fields) : isSingle field kind := by
  obtain ⟨slots, listed, all⟩ := (Option.any_eq_true _ _).mp closed
  refine (Option.any_eq_true _ _).mpr ⟨slots, listed, List.all_eq_true.mpr fun s slot => ?_⟩
  have single := List.all_eq_true.mp all s slot
  by_cases inField : s.field = some field
  · rw [inField, List.contains_iff_mem.mpr (List.mem_map_of_mem member)] at single
    exact Bool.or_eq_true_iff.mpr (.inr single)
  · simp [inField]

/-- The kinds that may stand in a field of a node of the kind. -/
def kindsIn (field : Option String) (kind : String) : Option (List String) :=
  (grammar.lookup kind).map fun slots => (slots.filter (·.field == field)).flatMap (·.kinds)

theorem aside_closed :
    aside.all fun entry => (callKinds.lookup entry.1).isNone && entry.2.all fun s =>
      s.kinds.all fun kind => isAside kind ||
        entry.1 == "spread_parameter" && kind == "variable_declarator" := by
  cbv

theorem aside_apart :
    aside.all fun entry => ((operands ++ declarations).lookup entry.1).isNone := by
  cbv

theorem grammar_of_aside {kind : String} {slots : List Slot} (listed : aside.lookup kind = some slots) :
    grammar.lookup kind = some slots := by
  have apart := List.all_eq_true.mp aside_apart _ (mem_of_lookup listed)
  rw [Option.isNone_iff_eq_none] at apart
  rw [grammar, List.lookup_append, apart, listed]
  rfl

end NodeTypes

namespace Located

variable {n c : Located} {slots : List Slot} {field : String}

theorem ownCall_eq_nil (other : callKinds.lookup n.kind = none) : n.node.ownCall = [] := by
  rw [Syntax.ownCall, show n.node.kind = n.kind from rfl, other]
  rfl

theorem ownCall_eq {k : CallKind} (isCall : callKinds.lookup n.kind = some k) :
    n.node.ownCall = [(k, n.extent.span)] := by
  rw [Syntax.ownCall, show n.node.kind = n.kind from rfl, isCall]
  rfl

theorem exists_of_child? (found : n.child? field = some c) :
    ∃ t : Syntax, n.below t = c ∧ t.field = some field := by
  obtain ⟨t, first, rfl⟩ := Option.map_eq_some_iff.mp found
  exact ⟨t, rfl, by simpa using List.find?_some first⟩

theorem mem_namedChildren_iff : c ∈ n.namedChildren ↔ ∃ t ∈ n.node.namedChildren, n.below t = c :=
  List.mem_map

namespace Grammatical

/-- The slot that a child stands in. -/
theorem slot (grammatical : n.Grammatical) (listed : NodeTypes.grammar.lookup n.kind = some slots)
    (among : c ∈ n.namedChildren) : ∃ s ∈ slots, s.field = c.node.field ∧ c.kind ∈ s.kinds := by
  obtain ⟨t, counted, rfl⟩ := mem_namedChildren_iff.mp among
  exact (grammatical.fits listed).2.1 t counted

theorem kind_of_field (grammatical : n.Grammatical) {field : Option String} {kinds : List String}
    (allowed : NodeTypes.kindsIn field n.kind = some kinds) (among : c ∈ n.namedChildren)
    (inField : c.node.field = field) : c.kind ∈ kinds := by
  obtain ⟨slots, listed, rfl⟩ := Option.map_eq_some_iff.mp allowed
  obtain ⟨s, slot, same, kind⟩ := grammatical.slot listed among
  exact List.mem_flatMap.mpr ⟨s, List.mem_filter.mpr ⟨slot, by simp [same, inField]⟩, kind⟩

theorem kind_of_child? (grammatical : n.Grammatical) {field : String} {kinds : List String}
    (allowed : NodeTypes.kindsIn (some field) n.kind = some kinds)
    (found : n.child? field = some c) : c.kind ∈ kinds := by
  obtain ⟨slots, listed, -⟩ := Option.map_eq_some_iff.mp allowed
  obtain ⟨t, first, rfl⟩ := Option.map_eq_some_iff.mp found
  have member : n.below t ∈ n.childrenIn field :=
    List.mem_map_of_mem (Syntax.mem_childrenIn_of_child? first)
  rw [← grammatical.filter_field listed, List.mem_filter] at member
  exact grammatical.kind_of_field allowed member.1 (eq_of_beq member.2)

theorem filter_eq_child? (grammatical : n.Grammatical) {field : String}
    (single : NodeTypes.isSingle field n.kind) :
    n.namedChildren.filter (·.node.field == some field) = (n.child? field).toList := by
  obtain ⟨slots, listed, all⟩ := (Option.any_eq_true _ _).mp single
  rw [grammatical.filter_field listed]
  refine grammatical.childrenIn_eq listed fun s slot inField => ?_
  simpa [inField] using List.all_eq_true.mp all s slot

/-- The calls in a node that is none itself. -/
theorem calls_of_noCall (grammatical : n.Grammatical) (other : callKinds.lookup n.kind = none) :
    n.node.calls = n.namedChildren.flatMap (·.node.calls) := by
  rw [grammatical.calls_eq, ownCall_eq_nil other, List.nil_append]

/-- A child stands in one of the given fields, or aside. -/
theorem aside_of_other (grammatical : n.Grammatical) (fields : List (Option String))
    (closed : (NodeTypes.grammar.lookup n.kind).any fun slots =>
      slots.all fun s => fields.contains s.field || s.kinds.all NodeTypes.isAside)
    (among : c ∈ n.namedChildren) (other : c.node.field ∉ fields) : NodeTypes.isAside c.kind := by
  obtain ⟨slots, listed, all⟩ := (Option.any_eq_true _ _).mp closed
  obtain ⟨s, slot, inField, kind⟩ := grammatical.slot listed among
  rcases Bool.or_eq_true_iff.mp (List.all_eq_true.mp all s slot) with special | aside
  · rw [inField] at special
    exact absurd (List.contains_iff_mem.mp special) other
  · exact List.all_eq_true.mp aside _ kind

theorem accounts_noted (among : c ∈ n.namedChildren) (noted : c.kind = "annotation") :
    Accounts c c.node.calls [] := by
  obtain ⟨t, -, rfl⟩ := mem_namedChildren_iff.mp among
  exact .leftOut (.noted noted)

/-- There are no calls in names, types and parameters outside of what is left out. -/
theorem accounts_aside (n : Located) (grammatical : n.Grammatical)
    (aside : (NodeTypes.aside.lookup n.kind).isSome) : Accounts n n.node.calls [] := by
  obtain ⟨slots, found⟩ := Option.isSome_iff_exists.mp aside
  have closed := List.all_eq_true.mp NodeTypes.aside_closed _ (mem_of_lookup found)
  rw [Bool.and_eq_true, Option.isNone_iff_eq_none] at closed
  rw [grammatical.calls_of_noCall closed.1]
  refine .nothing fun c among => ?_
  have inside := contains_of_mem_namedChildren among
  have smaller := inside.sizeOf_lt
  refine Accounts.mono ?_ inside.within
  obtain ⟨s, slot, inField, kind⟩ := grammatical.slot (NodeTypes.grammar_of_aside found) among
  have sort := List.all_eq_true.mp (List.all_eq_true.mp closed.2 s slot) _ kind
  simp only [NodeTypes.isAside, Bool.or_eq_true, Bool.and_eq_true, beq_iff_eq] at sort
  rcases sort with (sort | noted) | ⟨spread, declarator⟩
  · exact accounts_aside c (grammatical.namedChild among) sort
  · exact accounts_noted among noted
  · -- of the name with its dimensions and its value, the value is left out
    have grammatical := grammatical.namedChild among
    rw [grammatical.calls_of_noCall (by rw [declarator]; rfl)]
    refine .nothing fun d below => ?_
    have deeper := contains_of_mem_namedChildren below
    have smaller' := deeper.sizeOf_lt
    refine Accounts.mono ?_ deeper.within
    by_cases value : d.node.field = some "value"
    · obtain ⟨t, -, rfl⟩ := mem_namedChildren_iff.mp among
      obtain ⟨u, -, rfl⟩ := mem_namedChildren_iff.mp below
      exact .leftOut (.variadicValue declarator (by simp [parent?, Located.below, spread]) value)
    · have sort := grammatical.aside_of_other [some "value"] (by rw [declarator]; rfl)
        below (by simpa using value)
      simp only [NodeTypes.isAside, Bool.or_eq_true, beq_iff_eq] at sort
      rcases sort with sort | noted
      · exact accounts_aside d (grammatical.namedChild below) sort
      · exact accounts_noted below noted
termination_by sizeOf n.node

theorem accounts_isAside (grammatical : n.Grammatical) (among : c ∈ n.namedChildren)
    (aside : NodeTypes.isAside c.kind) : Accounts c c.node.calls [] := by
  rcases Bool.or_eq_true_iff.mp aside with aside | noted
  · exact accounts_aside c (grammatical.namedChild among) aside
  · exact accounts_noted among (eq_of_beq noted)

/-- If all children but those in some fields stand aside, the calls are in these fields. -/
theorem accounts_parts (grammatical : n.Grammatical) (fields : List (Option String))
    (closed : (NodeTypes.grammar.lookup n.kind).any fun slots =>
      slots.all fun s => fields.contains s.field || s.kinds.all NodeTypes.isAside)
    (kept : Located → List (CallKind × Span))
    (each : ∀ c ∈ n.namedChildren, c.node.field ∈ fields → Accounts c c.node.calls (kept c)) :
    Accounts n (n.namedChildren.flatMap (·.node.calls))
      ((n.namedChildren.filter fun c => fields.contains c.node.field).flatMap kept) := by
  rw [← List.append_nil (List.flatMap kept _)]
  refine .filter (fun c => fields.contains c.node.field) (.flatMap fun c member => ?_)
    (.nothing fun c member => ?_)
  · obtain ⟨among, special⟩ := List.mem_filter.mp member
    exact (each c among (List.contains_iff_mem.mp special)).mono
      (contains_of_mem_namedChildren among).within
  · obtain ⟨among, other⟩ := List.mem_filter.mp member
    have aside := grammatical.aside_of_other fields closed among (by simpa using other)
    exact (grammatical.accounts_isAside among aside).mono (contains_of_mem_namedChildren among).within

/-- The same for fields with at most one child each. What stands in the fields `lost` is left out. -/
theorem accounts_fields (grammatical : n.Grammatical) (fields lost : List String)
    (kept : String → Located → List (CallKind × Span)) (distinct : fields.Nodup)
    (closed : NodeTypes.takes (fields ++ lost) n.kind)
    (each : ∀ f ∈ fields, ∀ c, n.child? f = some c → Accounts c c.node.calls (kept f c))
    (out : ∀ f ∈ lost, ∀ c, n.child? f = some c → Accounts c c.node.calls []) :
    Accounts n (n.namedChildren.flatMap (·.node.calls))
      (fields.flatMap fun f => (n.child? f).toList.flatMap (kept f)) := by
  obtain ⟨slots, listed, all⟩ := (Option.any_eq_true _ _).mp closed
  have single : ∀ f ∈ fields ++ lost, n.namedChildren.filter (·.node.field == some f) =
      (n.child? f).toList := fun f member =>
    grammatical.filter_eq_child? (NodeTypes.isSingle_of_takes closed member)
  have child : ∀ f ∈ fields ++ lost, ∀ c ∈ n.namedChildren, c.node.field = some f →
      n.child? f = some c := by
    intro f member c among inField
    have found : c ∈ (n.child? f).toList := by
      rw [← single f member]
      exact List.mem_filter.mpr ⟨among, by simpa using inField⟩
    exact Option.mem_toList.mp found
  have accounts := Accounts.byField (n := n) n.namedChildren kept distinct ?_ ?_
  · rwa [List.flatMap_congr fun f member =>
      congrArg (List.flatMap (kept f)) (single f (List.mem_append_left lost member))] at accounts
  · intro c among f member inField
    have found := child f (List.mem_append_left lost member) c among inField
    exact (each f member c found).mono (contains_of_mem_namedChildren among).within
  · intro c among other
    refine Accounts.mono ?_ (contains_of_mem_namedChildren among).within
    by_cases left : c.node.field ∈ lost.map some
    · obtain ⟨f, member, inField⟩ := List.mem_map.mp left
      exact out f member c (child f (List.mem_append_right fields member) c among inField.symm)
    · refine grammatical.accounts_isAside among ?_
      obtain ⟨s, slot, inField, kind⟩ := grammatical.slot listed among
      have aside := List.all_eq_true.mp all s slot
      have elsewhere : ((fields ++ lost).map some).contains c.node.field = false := by
        rw [Bool.eq_false_iff, Ne, List.contains_iff_mem, List.map_append, List.mem_append]
        exact fun member => member.elim other left
      rw [inField, elsewhere] at aside
      exact List.all_eq_true.mp aside _ kind

end Grammatical

end Located

end JavaCallGraph.Java
