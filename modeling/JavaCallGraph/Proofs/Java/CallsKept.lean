import JavaCallGraph.Proofs.Java.Accounts
import JavaCallGraph.Proofs.Java.Layout
import JavaCallGraph.Proofs.Java.SourceOrder

/-!
What becomes of the calls in a syntax tree.

Lowering gives a unit one node for each call in its tree, with the kind and the place of the call,
except for the calls in parts that it leaves out. These parts are annotations of declarations and the
bodies of enum constants, and then some more: what stands before the dot of a qualified creation,
constructor invocation, `super` or `this`, what is embedded in a string that is an operand, and the
values of variadic parameters.
-/

namespace JavaCallGraph

namespace Java

/-! ### The kinds that jobs are for -/

/-- A job is done at a node of a kind that it is meant for. -/
def Job.Apt : Job → Prop
  | .expression n _ => n.kind ∈ NodeTypes.expressionKinds
  | .invocation n => n.kind = "explicit_constructor_invocation"
  | .lower _ _ | .component _ _ => True

namespace Located

variable {source : List Char} {n : Located} {role : Role} {j : Job}

theorem apt_of_mem_childJobs {inInterface : Bool} (member : j ∈ n.childJobs inInterface) :
    j.Apt := by
  obtain ⟨c, -, rfl⟩ := List.mem_map.mp member
  trivial

theorem apt_of_mem_bodyJobs {inInterface : Bool} (member : j ∈ n.bodyJobs inInterface) :
    j.Apt := by
  unfold bodyJobs at member
  split at member
  · exact apt_of_mem_childJobs member
  · cases member

namespace Grammatical

theorem apt_of_mem_argumentJobs (grammatical : n.Grammatical)
    (kind : NodeTypes.kindsIn (some "arguments") n.kind = some ["argument_list"])
    (member : j ∈ n.argumentJobs) : j.Apt := by
  unfold argumentJobs at member
  split at member
  · next list found =>
    have kind : list.kind = "argument_list" :=
      List.mem_singleton.mp (grammatical.kind_of_child? kind found)
    have inside := grammatical.child? found
    obtain ⟨a, among, rfl⟩ := List.mem_map.mp member
    obtain ⟨s, slot, inField, -⟩ := inside.slot (by rw [kind]; rfl) among
    rw [List.mem_singleton.mp slot] at inField
    exact inside.kind_of_field (by rw [kind]; rfl) among inField.symm
  · cases member

theorem apt_of_mem_operandJobs (grammatical : n.Grammatical) {field : String}
    (expressions : NodeTypes.kindsIn (some field) n.kind = some NodeTypes.expressionKinds)
    (member : j ∈ n.operandJobs field) : j.Apt := by
  obtain ⟨operand, found, rfl⟩ := Option.map_eq_some_iff.mp (Option.mem_toList.mp member)
  exact grammatical.kind_of_child? expressions found

theorem apt_of_mem_receiverJobs (grammatical : n.Grammatical) (kind : n.kind = "method_invocation")
    (member : j ∈ n.receiverJobs source) : j.Apt := by
  obtain ⟨receiver, found, rfl⟩ := Option.map_eq_some_iff.mp (Option.mem_toList.mp member)
  exact grammatical.kind_of_child? (by rw [kind]; rfl) (child?_of_receiver? found)

/-- All that stands in parentheses stands in no field. -/
theorem plain_of_parentheses (grammatical : n.Grammatical)
    (kind : n.kind = "parenthesized_expression") {c : Located} (among : c ∈ n.namedChildren) :
    c.node.field = none := by
  obtain ⟨s, slot, inField, -⟩ := grammatical.slot (by rw [kind]; rfl) among
  rw [← inField, List.mem_singleton.mp slot]

theorem apt_of_mem_expressionPlan (grammatical : n.Grammatical)
    (member : j ∈ (n.expressionPlan source role).jobs) : j.Apt := by
  have shaped := n.shaped source
  unfold expressionPlan at member
  generalize n.shape source = shape at shaped member
  cases shaped with
  | qualifiedThis | literal => cases member
  | fieldAccess kind => exact grammatical.apt_of_mem_operandJobs (by rw [kind]; rfl) member
  | other => exact apt_of_mem_childJobs member
  | listed found =>
    have listed := mem_of_lookup found
    simp only [shapes, List.mem_cons, Prod.mk.injEq, List.not_mem_nil, or_false] at listed
    rcases listed with ⟨kind, rfl⟩ | ⟨kind, rfl⟩ | ⟨kind, rfl⟩ | ⟨kind, rfl⟩ | ⟨kind, rfl⟩ | ⟨kind, rfl⟩
    · dsimp only at member
      split at member
      · next inner first =>
        rw [List.mem_singleton.mp member]
        have among := List.mem_of_head? first
        exact grammatical.kind_of_field (by rw [kind]; rfl) among
          (grammatical.plain_of_parentheses kind among)
      · cases member
    · rcases List.mem_append.mp member with receiver | argument
      · exact grammatical.apt_of_mem_receiverJobs kind receiver
      · exact grammatical.apt_of_mem_argumentJobs (by rw [kind]; rfl) argument
    · rcases List.mem_append.mp member with argument | inBody
      · exact grammatical.apt_of_mem_argumentJobs (by rw [kind]; rfl) argument
      · obtain ⟨body, -, inside⟩ := List.mem_flatMap.mp inBody
        exact apt_of_mem_childJobs inside
    · cases member
    · cases member
    · exact grammatical.apt_of_mem_operandJobs (by rw [kind]; rfl) member

theorem apt_of_mem_plan (grammatical : n.Grammatical) {inInterface : Bool}
    (member : j ∈ (n.plan source inInterface).jobs) : j.Apt := by
  unfold plan at member
  cases treatment : n.treatment with
  | skipped =>
    rw [treatment] at member
    cases member
  | type =>
    rw [treatment] at member
    rcases List.mem_append.mp member with component | inBody
    · obtain ⟨decl, -, rfl⟩ := List.mem_map.mp component
      trivial
    · exact apt_of_mem_bodyJobs inBody
  | callable =>
    rw [treatment] at member
    exact apt_of_mem_bodyJobs member
  | field | localVariable =>
    rw [treatment] at member
    obtain ⟨d, -, value⟩ := List.mem_filterMap.mp member
    obtain ⟨v, -, rfl⟩ := Option.map_eq_some_iff.mp value
    trivial
  | enumConstant =>
    simp only [treatment] at member
    split at member
    · exact apt_of_mem_childJobs member
    · cases member
  | constructorInvocation =>
    rw [treatment] at member
    rw [List.mem_singleton.mp member]
    have kind := mem_treatments treatment nofun nofun
    simpa [Job.Apt, treatments, statementKinds] using kind
  | call =>
    rw [treatment] at member
    exact grammatical.apt_of_mem_expressionPlan member
  | initializer | statement | passed =>
    rw [treatment] at member
    exact apt_of_mem_childJobs member

end Grammatical

end Located

theorem Job.apt_of_mem_plan {source : List Char} {j x : Job} (grammatical : j.node.Grammatical)
    (apt : j.Apt) (member : x ∈ (j.plan source).jobs) : x.Apt := by
  cases j with
  | lower n inInterface => exact Located.Grammatical.apt_of_mem_plan grammatical member
  | expression n role => exact Located.Grammatical.apt_of_mem_expressionPlan grammatical member
  | invocation n =>
    have kind : n.kind = "explicit_constructor_invocation" := apt
    exact Located.Grammatical.apt_of_mem_argumentJobs (n := n) grammatical (by rw [kind]; rfl) member
  | component n decl => cases member

/-! ### The calls of sketches -/

namespace Sketch

def call? : Sketch → Option (CallKind × Span)
  | .node _ kind origin _ => kind.callKind?.map (·, origin.extent.span)

def calls (sketches : List Sketch) : List (CallKind × Span) := (listings sketches).filterMap call?

theorem calls_flatMap {α : Type} (f : α → List Sketch) (l : List α) :
    calls (l.flatMap f) = l.flatMap fun x => calls (f x) := by
  rw [calls, listings_flatMap, List.filterMap_flatMap]
  rfl

theorem calls_node (role : Role) (k : NodeKind) (n : Located) (parts : List Sketch) :
    calls [.node role k n parts] = (k.callKind?.map (·, n.extent.span)).toList ++ calls parts := by
  rw [calls, listings, listing, listings, List.append_nil, List.filterMap_cons, call?]
  cases k.callKind? <;> rfl

end Sketch

namespace Job

variable {source : List Char} {j : Job}

/-- The calls that a job leaves. -/
def keptCalls (source : List Char) (j : Job) : List (CallKind × Span) :=
  Sketch.calls (j.sketches source)

theorem keptCalls_eq (j : Job) :
    j.keptCalls source =
      (((j.plan source).kind.bind (·.callKind?)).map (·, j.node.extent.span)).toList ++
        (j.plan source).jobs.flatMap (keptCalls source) := by
  have inside : Sketch.calls ((j.plan source).jobs.flatMap (sketches source)) =
      (j.plan source).jobs.flatMap (keptCalls source) := Sketch.calls_flatMap _ _
  rw [keptCalls, sketches_eq, ← inside]
  cases (j.plan source).kind with
  | none => rfl
  | some k => exact Sketch.calls_node _ _ _ _

/-- The calls that stand where a job is done. -/
def writtenCalls : Job → List (CallKind × Span)
  | component _ _ => []
  | lower n _ | expression n _ | invocation n => n.node.calls

/-- Nothing is missing in what a job leaves. -/
def IsAccounted (source : List Char) (j : Job) : Prop :=
  Accounts j.node j.writtenCalls (j.keptCalls source)

end Job

namespace Located.Grammatical

variable {source : List Char} {n c : Located} {inInterface : Bool}

/-! ### All children -/

theorem accounts_childJobs (ih : ∀ j ∈ n.childJobs inInterface, j.IsAccounted source) :
    Accounts n (n.namedChildren.flatMap (·.node.calls))
      ((n.childJobs inInterface).flatMap (Job.keptCalls source)) := by
  rw [childJobs, List.flatMap_map]
  refine .flatMap fun c among => ?_
  exact (ih _ (List.mem_map_of_mem among)).mono (contains_of_mem_namedChildren among).within

/-- The account of a node that is no call and has all its children lowered. -/
theorem accounts_whole (grammatical : n.Grammatical) (other : callKinds.lookup n.kind = none)
    (ih : ∀ j ∈ n.childJobs inInterface, j.IsAccounted source) :
    Accounts n n.node.calls ((n.childJobs inInterface).flatMap (Job.keptCalls source)) := by
  rw [grammatical.calls_of_noCall other]
  exact accounts_childJobs ih

/-! ### Bodies and values -/

/-- Whether a kind is that of no call. -/
def isNoCall (kind : String) : Bool := (callKinds.lookup kind).isNone

theorem accounts_bodyJobs (grammatical : n.Grammatical) (other : callKinds.lookup n.kind = none)
    (closed : NodeTypes.takes ["body"] n.kind)
    (bodies : (NodeTypes.kindsIn (some "body") n.kind).any (·.all isNoCall))
    (ih : ∀ j ∈ n.bodyJobs inInterface, j.IsAccounted source) :
    Accounts n n.node.calls ((n.bodyJobs inInterface).flatMap (Job.keptCalls source)) := by
  rw [grammatical.calls_of_noCall other]
  have accounts := grammatical.accounts_fields ["body"] []
    (fun _ body => (body.childJobs inInterface).flatMap (Job.keptCalls source)) (by simp) closed ?_
    (List.forall_mem_nil _)
  · rw [bodyJobs]
    cases found : n.child? "body" <;> simpa [found] using accounts
  · intro f member body found
    obtain rfl := List.mem_singleton.mp member
    rw [bodyJobs, found] at ih
    obtain ⟨kinds, allowed, noCalls⟩ := (Option.any_eq_true _ _).mp bodies
    have noCall := List.all_eq_true.mp noCalls _ (grammatical.kind_of_child? allowed found)
    exact (grammatical.child? found).accounts_whole (Option.isNone_iff_eq_none.mp noCall) ih

/-- Of a declared name the value counts. -/
theorem accounts_declarator (grammatical : n.Grammatical) (declarator : n.kind = "variable_declarator")
    (ih : ∀ value, n.child? "value" = some value → (Job.lower value false).IsAccounted source) :
    Accounts n n.node.calls
      ((n.child? "value").toList.flatMap fun v => (Job.lower v false).keptCalls source) := by
  rw [grammatical.calls_of_noCall (by rw [declarator]; rfl)]
  have accounts := grammatical.accounts_fields ["value"] []
    (fun _ v => (Job.lower v false).keptCalls source) (by simp) (by rw [declarator]; rfl)
    (fun f member value found => ih value (List.mem_singleton.mp member ▸ found))
    (List.forall_mem_nil _)
  simpa using accounts

theorem accounts_initializerJobs (grammatical : n.Grammatical)
    (other : callKinds.lookup n.kind = none)
    (closed : (NodeTypes.grammar.lookup n.kind).any fun slots =>
      slots.all fun s => [some "declarator"].contains s.field || s.kinds.all NodeTypes.isAside)
    (declarators : NodeTypes.kindsIn (some "declarator") n.kind = some ["variable_declarator"])
    (ih : ∀ j ∈ n.initializerJobs, j.IsAccounted source) :
    Accounts n n.node.calls (n.initializerJobs.flatMap (Job.keptCalls source)) := by
  obtain ⟨slots, listed, -⟩ := (Option.any_eq_true _ _).mp closed
  have among := grammatical.filter_field listed "declarator"
  have jobs : n.initializerJobs.flatMap (Job.keptCalls source) =
      (n.namedChildren.filter fun c => [some "declarator"].contains c.node.field).flatMap fun d =>
        (d.child? "value").toList.flatMap fun v => (Job.lower v false).keptCalls source := by
    have same : (n.namedChildren.filter fun c => [some "declarator"].contains c.node.field) =
        n.declarators := by
      rw [Located.declarators, ← among]
      exact List.filter_congr fun c _ => by rw [Bool.eq_iff_iff]; simp
    rw [same, initializerJobs, List.filterMap_eq_flatMap_toList, List.flatMap_assoc]
    refine List.flatMap_congr fun d _ => ?_
    cases d.child? "value" <;> simp
  rw [grammatical.calls_of_noCall other, jobs]
  refine grammatical.accounts_parts [some "declarator"] closed _ fun d member inField => ?_
  have inField := List.mem_singleton.mp inField
  have kind := List.mem_singleton.mp (grammatical.kind_of_field declarators member inField)
  refine (grammatical.namedChild member).accounts_declarator kind fun v found => ?_
  refine ih _ (List.mem_filterMap.mpr ⟨d, ?_, by rw [found]; rfl⟩)
  rw [Located.declarators, ← among]
  exact List.mem_filter.mpr ⟨member, by simpa using inField⟩

/-- Of an enum constant the arguments count, and the body is left out. -/
theorem accounts_enumConstant (grammatical : n.Grammatical) (inInterface : Bool)
    (constant : n.kind = "enum_constant")
    (ih : ∀ list, n.child? "arguments" = some list →
      ∀ j ∈ list.childJobs inInterface, j.IsAccounted source) :
    Accounts n n.node.calls ((n.child? "arguments").toList.flatMap fun list =>
      (list.childJobs inInterface).flatMap (Job.keptCalls source)) := by
  rw [grammatical.calls_of_noCall (by rw [constant]; rfl)]
  have accounts := grammatical.accounts_fields ["arguments"] ["body"]
    (fun _ list => (list.childJobs inInterface).flatMap (Job.keptCalls source)) (by simp)
    (by rw [constant]; rfl) ?_ ?_
  · simpa using accounts
  · intro f member list found
    obtain rfl := List.mem_singleton.mp member
    have kind : list.kind = "argument_list" :=
      List.mem_singleton.mp (grammatical.kind_of_child? (by rw [constant]; rfl) found)
    exact (grammatical.child? found).accounts_whole (by rw [kind]; rfl) (ih list found)
  · intro f member body found
    obtain rfl := List.mem_singleton.mp member
    obtain ⟨t, rfl, inField⟩ := exists_of_child? found
    exact .leftOut (.constantBody constant inField)

/-! ### Calls -/

/-- The arguments of a call, each as an expression. -/
theorem accounts_arguments (grammatical : n.Grammatical)
    (kind : NodeTypes.kindsIn (some "arguments") n.kind = some ["argument_list"])
    (ih : ∀ j ∈ n.argumentJobs, j.IsAccounted source) {list : Located}
    (found : n.child? "arguments" = some list) :
    Accounts list list.node.calls
      (list.namedChildren.flatMap fun a => (Job.expression a .argument).keptCalls source) := by
  have kind : list.kind = "argument_list" :=
    List.mem_singleton.mp (grammatical.kind_of_child? kind found)
  have grammatical := grammatical.child? found
  rw [grammatical.calls_of_noCall (by rw [kind]; rfl)]
  refine .flatMap fun a among => Accounts.mono ?_ (contains_of_mem_namedChildren among).within
  refine ih (.expression a .argument) ?_
  rw [argumentJobs, found]
  exact List.mem_map_of_mem among

theorem keptCalls_argumentJobs :
    n.argumentJobs.flatMap (Job.keptCalls source) =
      (n.child? "arguments").toList.flatMap fun list =>
        list.namedChildren.flatMap fun a => (Job.expression a .argument).keptCalls source := by
  rw [argumentJobs]
  cases n.child? "arguments" with
  | none => rfl
  | some list => rw [Option.toList_some, List.flatMap_singleton, List.flatMap_map]

theorem accounts_qualifiedThis (grammatical : n.Grammatical) (qualified : n.isQualifiedThis) :
    Accounts n n.node.calls [] := by
  have kind : n.kind = "field_access" := by
    rw [isQualifiedThis, Bool.and_eq_true] at qualified
    exact eq_of_beq qualified.1
  rw [grammatical.calls_of_noCall (by rw [kind]; rfl)]
  refine grammatical.accounts_fields [] ["object"] (fun _ _ => []) .nil (by rw [kind]; rfl)
    (List.forall_mem_nil _) fun f member object found => ?_
  obtain rfl := List.mem_singleton.mp member
  obtain ⟨t, rfl, inField⟩ := exists_of_child? found
  exact .leftOut (.thisQualifier qualified inField)

/-- The object of a call that is no receiver. -/
theorem receiver?_eq_none {object : Located} (found : n.child? "object" = some object)
    (other : n.receiver? source = none) :
    n.isQualifiedSuper ∨ object.kind = "this" ∨ object.kind = "super" ∨ object.isQualifiedThis := by
  simp only [receiver?, callScope, found, Bool.cond_eq_ite] at other
  split at other
  · exact .inl ‹_›
  split at other
  · exact .inr (.inl ‹_›)
  split at other
  · exact .inr (.inr (.inl ‹_›))
  split at other
  · exact .inr (.inr (.inr ‹_›))
  · cases other

/-- The object of a call, kept as its receiver or left out. -/
theorem accounts_object (grammatical : n.Grammatical) (kind : n.kind = "method_invocation")
    (ih : ∀ j ∈ n.receiverJobs source, j.IsAccounted source) {object : Located}
    (found : n.child? "object" = some object) :
    Accounts object object.node.calls ((n.receiverJobs source).flatMap (Job.keptCalls source)) := by
  have inside := grammatical.child? found
  rw [receiverJobs] at ih ⊢
  cases receiver : n.receiver? source with
  | some r =>
    obtain rfl : r = object :=
      Option.some.inj ((child?_of_receiver? receiver).symm.trans found)
    rw [receiver] at ih
    have accounts := ih (.expression r .receiver) List.mem_cons_self
    simpa [Job.IsAccounted, Job.writtenCalls, Job.node] using accounts
  | none =>
    rcases receiver?_eq_none found receiver with qualified | this | super | qualified
    · obtain ⟨t, rfl, inField⟩ := exists_of_child? found
      exact .leftOut (.superQualifier kind qualified inField)
    · exact accounts_aside object inside (by rw [this]; rfl)
    · exact accounts_aside object inside (by rw [super]; rfl)
    · exact inside.accounts_qualifiedThis qualified

theorem accounts_methodInvocation (grammatical : n.Grammatical) (kind : n.kind = "method_invocation")
    (ih : ∀ j ∈ n.receiverJobs source ++ n.argumentJobs, j.IsAccounted source) :
    Accounts n n.node.calls (n.node.ownCall ++
      (n.receiverJobs source ++ n.argumentJobs).flatMap (Job.keptCalls source)) := by
  obtain ⟨ofReceiver, ofArguments⟩ := List.forall_mem_append.mp ih
  rw [grammatical.calls_eq, List.flatMap_append, keptCalls_argumentJobs]
  refine (Accounts.refl n _).append ?_
  let receivers := (n.receiverJobs source).flatMap (Job.keptCalls source)
  have accounts := grammatical.accounts_fields ["object", "arguments"] [] (fun f c =>
    if f = "object" then receivers
    else c.namedChildren.flatMap fun a => (Job.expression a .argument).keptCalls source)
    (by simp) (by rw [kind]; rfl) ?_ (List.forall_mem_nil _)
  · have single : (n.child? "object").toList.flatMap (fun _ => receivers) = receivers := by
      cases found : n.child? "object" with
      | some object => rw [Option.toList_some, List.flatMap_singleton]
      | none => simp [receivers, receiverJobs, receiver?, callScope, found]
    simpa [single] using accounts
  · intro f member c found
    simp only [List.mem_cons, List.not_mem_nil, or_false] at member
    rcases member with rfl | rfl
    · exact grammatical.accounts_object kind ofReceiver found
    · exact grammatical.accounts_arguments (by rw [kind]; rfl) ofArguments found

theorem accounts_invocation (grammatical : n.Grammatical)
    (kind : n.kind = "explicit_constructor_invocation")
    (ih : ∀ j ∈ n.argumentJobs, j.IsAccounted source) :
    Accounts n n.node.calls (n.node.ownCall ++ n.argumentJobs.flatMap (Job.keptCalls source)) := by
  rw [grammatical.calls_eq, keptCalls_argumentJobs]
  refine (Accounts.refl n _).append ?_
  have accounts := grammatical.accounts_fields ["arguments"] ["object"]
    (fun _ list => list.namedChildren.flatMap fun a => (Job.expression a .argument).keptCalls source)
    (by simp) (by rw [kind]; rfl) ?_ ?_
  · simpa using accounts
  · intro f member list found
    obtain rfl := List.mem_singleton.mp member
    exact grammatical.accounts_arguments (by rw [kind]; rfl) ih found
  · intro f member object found
    obtain rfl := List.mem_singleton.mp member
    obtain ⟨t, rfl, inField⟩ := exists_of_child? found
    exact .leftOut (.invocationQualifier kind inField)

/-- The parts of a creation that are neither its arguments nor a body. -/
theorem accounts_creationPart (grammatical : n.Grammatical)
    (kind : n.kind = "object_creation_expression") (among : c ∈ n.namedChildren)
    (notArguments : c.node.field ≠ some "arguments") (notBody : c.kind ≠ "class_body") :
    Accounts c c.node.calls [] := by
  by_cases plain : c.node.field = none
  · have part : c.kind ∈ NodeTypes.expressionKinds ++ NodeTypes.annotationKinds ++
        ["type_arguments", "class_body"] ++ [] :=
      grammatical.kind_of_field (by rw [kind]; rfl) among plain
    simp only [List.append_nil, NodeTypes.annotationKinds, List.mem_append, List.mem_cons,
      List.not_mem_nil, or_false] at part
    rcases part with (qualifier | noted | marker) | typeArguments | body
    · obtain ⟨t, -, rfl⟩ := mem_namedChildren_iff.mp among
      exact .leftOut (.creationQualifier kind plain qualifier)
    · exact accounts_noted among noted
    · exact accounts_aside c (grammatical.namedChild among) (by rw [marker]; rfl)
    · exact accounts_aside c (grammatical.namedChild among) (by rw [typeArguments]; rfl)
    · exact absurd body notBody
  · refine grammatical.accounts_isAside among ?_
    exact grammatical.aside_of_other [none, some "arguments"] (by rw [kind]; rfl) among
      (by simp [plain, notArguments])

theorem accounts_objectCreation (grammatical : n.Grammatical)
    (kind : n.kind = "object_creation_expression")
    (ih : ∀ j ∈ n.argumentJobs ++ n.classBodies.flatMap (·.childJobs false),
      j.IsAccounted source) :
    Accounts n n.node.calls (n.node.ownCall ++
      (n.argumentJobs ++ n.classBodies.flatMap (·.childJobs false)).flatMap
        (Job.keptCalls source)) := by
  obtain ⟨ofArguments, ofMembers⟩ := List.forall_mem_append.mp ih
  have single : n.namedChildren.filter (·.node.field == some "arguments") =
      (n.child? "arguments").toList := grammatical.filter_eq_child? (by rw [kind]; rfl)
  have bodies : (n.namedChildren.filter (!·.node.field == some "arguments")).filter
      (·.kind == "class_body") = n.classBodies := by
    rw [List.filter_filter, classBodies]
    refine List.filter_congr fun c among => ?_
    by_cases inField : c.node.field = some "arguments"
    · have list : c.kind = "argument_list" :=
        List.mem_singleton.mp (grammatical.kind_of_field (by rw [kind]; rfl) among inField)
      simp [list]
    · simp [inField]
  rw [grammatical.calls_eq, List.flatMap_append, keptCalls_argumentJobs, List.flatMap_assoc,
    ← List.append_nil (n.classBodies.flatMap _)]
  refine (Accounts.refl n _).append
    (.filter (·.node.field == some "arguments") ?_ (.filter (·.kind == "class_body") ?_ ?_))
  · rw [single]
    refine .flatMap fun list found => ?_
    have found := Option.mem_toList.mp found
    exact (grammatical.accounts_arguments (by rw [kind]; rfl) ofArguments found).mono
      (contains_of_child? found).within
  · rw [bodies]
    refine .flatMap fun body listed => ?_
    obtain ⟨among, isBody⟩ := List.mem_filter.mp listed
    refine Accounts.mono ?_ (contains_of_mem_namedChildren among).within
    refine (grammatical.namedChild among).accounts_whole (by rw [eq_of_beq isBody]; rfl) ?_
    exact fun j member => ofMembers j (List.mem_flatMap.mpr ⟨body, listed, member⟩)
  · refine .nothing fun c member => ?_
    obtain ⟨member, notBody⟩ := List.mem_filter.mp member
    obtain ⟨among, notArguments⟩ := List.mem_filter.mp member
    exact (grammatical.accounts_creationPart kind among (by simpa using notArguments)
      (by simpa using notBody)).mono (contains_of_mem_namedChildren among).within

/-! ### Other operands -/

theorem accounts_operandJobs (grammatical : n.Grammatical) {field : String}
    (other : callKinds.lookup n.kind = none) (closed : NodeTypes.takes [field] n.kind)
    (ih : ∀ j ∈ n.operandJobs field, j.IsAccounted source) :
    Accounts n n.node.calls ((n.operandJobs field).flatMap (Job.keptCalls source)) := by
  rw [grammatical.calls_of_noCall other]
  have accounts := grammatical.accounts_fields [field] []
    (fun _ c => (Job.expression c .child).keptCalls source) (by simp) closed ?_
    (List.forall_mem_nil _)
  · rw [operandJobs]
    cases found : n.child? field <;> simpa [found] using accounts
  · intro f member operand found
    obtain rfl := List.mem_singleton.mp member
    refine ih (.expression operand .child) ?_
    rw [operandJobs, found]
    exact List.mem_singleton_self _

/-- In parentheses stands one expression. -/
theorem accounts_parentheses (grammatical : n.Grammatical)
    (kind : n.kind = "parenthesized_expression") (role : Role)
    (ih : ∀ inner, n.namedChildren.head? = some inner →
      (Job.expression inner role).IsAccounted source) :
    Accounts n n.node.calls (n.namedChildren.head?.toList.flatMap fun inner =>
      (Job.expression inner role).keptCalls source) := by
  have listed : NodeTypes.grammar.lookup n.kind =
      some [{ field := none, kinds := NodeTypes.expressionKinds }] := by
    rw [kind]
    rfl
  have short : n.namedChildren.length ≤ 1 := by
    have once := ((grammatical.fits listed).2.2 _ List.mem_cons_self).resolve_left (by simp)
    rw [List.filter_eq_self.mpr] at once
    · rwa [namedChildren, List.length_map]
    · intro t among
      exact beq_iff_eq.mpr (grammatical.plain_of_parentheses kind (c := n.below t)
        (List.mem_map_of_mem among))
  rw [grammatical.calls_of_noCall (by rw [kind]; rfl)]
  rw [toList_head? short]
  refine .flatMap fun inner among => Accounts.mono ?_ (contains_of_mem_namedChildren among).within
  rw [← toList_head? short] at among
  exact ih inner (Option.mem_toList.mp among)

theorem plainLiterals_closed :
    NodeTypes.plainLiterals.all fun kind => isNoCall kind &&
      (NodeTypes.grammar.lookup kind).any List.isEmpty := by
  cbv

theorem kind_of_literalType? {typeName : String} (literal : n.literalType? source = some typeName) :
    n.kind = "string_literal" ∨ n.kind ∈ NodeTypes.plainLiterals := by
  simp only [literalType?, Bool.cond_eq_ite] at literal
  split at literal
  · next integer =>
    exact .inr (List.mem_append_left _ (List.mem_append_left _ (List.contains_iff_mem.mp integer)))
  split at literal
  · next float =>
    exact .inr (List.mem_append_left _ (List.mem_append_right _ (List.contains_iff_mem.mp float)))
  · have listed := mem_of_lookup literal
    simp only [literalTypes, List.mem_cons, Prod.mk.injEq, List.not_mem_nil, or_false] at listed
    rcases listed with ⟨kind, -⟩ | ⟨kind, -⟩ | ⟨kind, -⟩ | ⟨kind, -⟩ | ⟨kind, -⟩
    · exact .inl kind
    all_goals exact .inr (List.mem_append_right _ (by simp [kind]))

/-- A literal has no calls, except for those that are embedded in a string. -/
theorem accounts_literal (grammatical : n.Grammatical) {typeName : String}
    (literal : n.literalType? source = some typeName) : Accounts n n.node.calls [] := by
  rcases kind_of_literalType? literal with string | plain
  · rw [grammatical.calls_of_noCall (by rw [string]; rfl)]
    refine .nothing fun c among => Accounts.mono ?_ (contains_of_mem_namedChildren among).within
    obtain ⟨s, slot, inField, -⟩ := grammatical.slot (by rw [string]; rfl) among
    rw [List.mem_singleton.mp slot] at inField
    have part : c.kind ∈ ["string_fragment", "multiline_string_fragment", "escape_sequence",
      "string_interpolation"] := grammatical.kind_of_field (by rw [string]; rfl) among inField.symm
    simp only [List.mem_cons, List.not_mem_nil, or_false] at part
    have inside := grammatical.namedChild among
    rcases part with piece | piece | piece | embedded
    · exact accounts_aside c inside (by rw [piece]; rfl)
    · exact accounts_aside c inside (by rw [piece]; rfl)
    · exact accounts_aside c inside (by rw [piece]; rfl)
    · obtain ⟨t, -, rfl⟩ := mem_namedChildren_iff.mp among
      exact .leftOut (.interpolation string embedded)
  · have closed := List.all_eq_true.mp plainLiterals_closed _ plain
    rw [Bool.and_eq_true, isNoCall, Option.isNone_iff_eq_none] at closed
    obtain ⟨slots, listed, none⟩ := (Option.any_eq_true _ _).mp closed.2
    rw [grammatical.calls_of_noCall closed.1]
    refine .nothing fun c among => ?_
    obtain ⟨s, slot, -⟩ := grammatical.slot listed among
    rw [List.isEmpty_iff.mp none] at slot
    cases slot

/-! ### All expressions -/

theorem expressionKinds_closed :
    NodeTypes.expressionKinds.all fun kind => isNoCall kind || (shapes.lookup kind).isSome := by
  cbv

/-- The calls that a plan enters itself. -/
def planned (n : Located) (plan : Plan) : List (CallKind × Span) :=
  ((plan.kind.bind (·.callKind?)).map (·, n.extent.span)).toList

theorem accounts_expressionPlan (grammatical : n.Grammatical)
    (expression : n.kind ∈ NodeTypes.expressionKinds) (role : Role)
    (ih : ∀ j ∈ (n.expressionPlan source role).jobs, j.IsAccounted source) :
    Accounts n n.node.calls (planned n (n.expressionPlan source role) ++
      (n.expressionPlan source role).jobs.flatMap (Job.keptCalls source)) := by
  have shaped := n.shaped source
  unfold expressionPlan at ih ⊢
  generalize n.shape source = shape at shaped ih ⊢
  cases shaped with
  | qualifiedThis qualified => exact grammatical.accounts_qualifiedThis qualified
  | fieldAccess kind =>
    exact grammatical.accounts_operandJobs (by rw [kind]; rfl) (by rw [kind]; rfl) ih
  | literal isLiteral => exact grammatical.accounts_literal isLiteral
  | other unlisted =>
    have closed := List.all_eq_true.mp expressionKinds_closed _ expression
    rw [unlisted, Option.isSome_none, Bool.or_false, isNoCall, Option.isNone_iff_eq_none] at closed
    exact grammatical.accounts_whole closed ih
  | listed found =>
    have listed := mem_of_lookup found
    simp only [shapes, List.mem_cons, Prod.mk.injEq, List.not_mem_nil, or_false] at listed
    rcases listed with ⟨kind, rfl⟩ | ⟨kind, rfl⟩ | ⟨kind, rfl⟩ | ⟨kind, rfl⟩ | ⟨kind, rfl⟩ | ⟨kind, rfl⟩
    · dsimp only at ih ⊢
      have accounts := grammatical.accounts_parentheses kind role fun inner first => by
        rw [first] at ih
        exact ih _ List.mem_cons_self
      cases first : n.namedChildren.head? with
      | some inner => simpa [first, planned] using accounts
      | none => simpa [first, planned, NodeKind.callKind?] using accounts
    · have accounts := grammatical.accounts_methodInvocation kind ih
      rwa [ownCall_eq (by rw [kind]; rfl)] at accounts
    · have accounts := grammatical.accounts_objectCreation kind ih
      rwa [ownCall_eq (by rw [kind]; rfl)] at accounts
    · exact accounts_aside n grammatical (by rw [kind]; rfl)
    · exact accounts_aside n grammatical (by rw [kind]; rfl)
    · exact grammatical.accounts_operandJobs (by rw [kind]; rfl) (by rw [kind]; rfl) ih

/-! ### All nodes -/

/-- A node that is treated in another way is no call. -/
theorem noCall_of_treatment (notCall : n.treatment ≠ .call)
    (notInvocation : n.treatment ≠ .constructorInvocation) : callKinds.lookup n.kind = none := by
  cases found : callKinds.lookup n.kind with
  | none => rfl
  | some k =>
    have listed := mem_of_lookup found
    simp only [callKinds, List.mem_cons, Prod.mk.injEq, List.not_mem_nil, or_false] at listed
    unfold Located.treatment at notCall notInvocation
    rcases listed with ⟨kind, -⟩ | ⟨kind, -⟩ | ⟨kind, -⟩
    · exact absurd (by rw [kind]; rfl) notCall
    · exact absurd (by rw [kind]; rfl) notCall
    · exact absurd (by rw [kind]; rfl) notInvocation

/-- What the table says of the kinds that are treated in a way. -/
def treatedAs (kind : String) : Treatment → Bool
  | .skipped => NodeTypes.takes [] kind
  | .type | .callable =>
    NodeTypes.takes ["body"] kind && (NodeTypes.kindsIn (some "body") kind).any (·.all isNoCall)
  | .field | .localVariable =>
    ((NodeTypes.grammar.lookup kind).any fun slots =>
      slots.all fun s => [some "declarator"].contains s.field || s.kinds.all NodeTypes.isAside) &&
    NodeTypes.kindsIn (some "declarator") kind == some ["variable_declarator"]
  | .enumConstant => kind == "enum_constant"
  | .constructorInvocation => kind == "explicit_constructor_invocation"
  | .call => kind == "method_invocation" || kind == "object_creation_expression"
  | .initializer _ | .statement | .passed => true

theorem treatments_closed : treatments.all fun entry => treatedAs entry.1 entry.2 := by
  cbv

theorem treatedAs_treatment (n : Located) : treatedAs n.kind n.treatment := by
  by_cases passed : n.treatment = .passed
  · rw [passed]
    rfl
  by_cases block : n.treatment = .initializer false
  · rw [block]
    rfl
  exact List.all_eq_true.mp treatments_closed _ (mem_treatments rfl passed block)

theorem keptCalls_components (source : List Char) (decls : List FieldDecl) :
    (decls.map (Job.component n)).flatMap (Job.keptCalls source) = [] := by
  refine List.flatMap_eq_nil_iff.mpr fun j member => ?_
  obtain ⟨decl, -, rfl⟩ := List.mem_map.mp member
  rw [Job.keptCalls_eq]
  rfl

theorem accounts_plan (grammatical : n.Grammatical) (inInterface : Bool)
    (ih : ∀ j ∈ (n.plan source inInterface).jobs, j.IsAccounted source) :
    Accounts n n.node.calls (planned n (n.plan source inInterface) ++
      (n.plan source inInterface).jobs.flatMap (Job.keptCalls source)) := by
  have treated := treatedAs_treatment n
  have noCall := noCall_of_treatment (n := n)
  unfold plan at ih ⊢
  generalize n.treatment = treatment at treated noCall ih ⊢
  cases treatment with
  | skipped =>
    rw [grammatical.calls_of_noCall (noCall (by simp) (by simp))]
    exact grammatical.accounts_fields [] [] (fun _ _ => []) .nil treated (List.forall_mem_nil _)
      (List.forall_mem_nil _)
  | type =>
    obtain ⟨closed, bodies⟩ := Bool.and_eq_true_iff.mp treated
    obtain ⟨-, ofBody⟩ := List.forall_mem_append.mp ih
    rw [List.flatMap_append, keptCalls_components]
    exact grammatical.accounts_bodyJobs (noCall (by simp) (by simp)) closed bodies ofBody
  | callable =>
    obtain ⟨closed, bodies⟩ := Bool.and_eq_true_iff.mp treated
    exact grammatical.accounts_bodyJobs (noCall (by simp) (by simp)) closed bodies ih
  | field | localVariable =>
    obtain ⟨closed, declarators⟩ := Bool.and_eq_true_iff.mp treated
    exact grammatical.accounts_initializerJobs (noCall (by simp) (by simp)) closed
      (eq_of_beq declarators) ih
  | enumConstant =>
    dsimp only at ih ⊢
    have accounts := grammatical.accounts_enumConstant inInterface
      (eq_of_beq treated) fun list found => by
        rw [found] at ih
        exact ih
    cases found : n.child? "arguments" <;> simpa [found, planned] using accounts
  | constructorInvocation =>
    have accounts : Accounts n n.node.calls ((Job.invocation n).keptCalls source) :=
      ih (.invocation n) List.mem_cons_self
    simpa [planned, NodeKind.callKind?] using accounts
  | call =>
    refine grammatical.accounts_expressionPlan ?_ .child ih
    rcases Bool.or_eq_true_iff.mp treated with kind | kind
    · simp [eq_of_beq kind, NodeTypes.expressionKinds]
    · simp [eq_of_beq kind, NodeTypes.expressionKinds]
  | initializer isStatic | statement | passed =>
    exact grammatical.accounts_whole (noCall (by simp) (by simp)) ih

end Located.Grammatical

/-- Of the calls where a job is done those that it does not leave stand in parts that are left out. -/
theorem Job.isAccounted {source : List Char} (j : Job) (grammatical : j.node.Grammatical)
    (apt : j.Apt) : j.IsAccounted source := by
  induction j using Job.induction source with
  | step j ih =>
    have ih : ∀ x ∈ (j.plan source).jobs, x.IsAccounted source := fun x member =>
      ih x member (grammatical.within (within_of_mem_plan member))
        (apt_of_mem_plan grammatical apt member)
    rw [IsAccounted, keptCalls_eq]
    cases j with
    | lower n inInterface => exact grammatical.accounts_plan inInterface ih
    | expression n role => exact grammatical.accounts_expressionPlan apt role ih
    | invocation n =>
      have kind : n.kind = "explicit_constructor_invocation" := apt
      have accounts : Accounts n n.node.calls (n.node.ownCall ++ _) :=
        grammatical.accounts_invocation kind ih
      rwa [Located.ownCall_eq (by rw [kind]; rfl)] at accounts
    | component n decl => exact .refl n []

theorem accounts_fileSketches (source : List Char) {root : Syntax} (file : root.kind = "program")
    (grammatical : root.everywhere Syntax.fitsGrammar) :
    Accounts { node := root } root.calls (Sketch.calls (fileSketches source root)) := by
  rw [fileSketches, Sketch.calls_flatMap]
  have grammatical : Located.Grammatical { node := root } := grammatical
  have other : callKinds.lookup root.kind = none := by
    rw [file]
    rfl
  refine grammatical.accounts_whole other fun j member => ?_
  exact j.isAccounted (grammatical.within (Located.inside_of_mem_childJobs member).contains.within)
    (Located.apt_of_mem_childJobs member)

end Java

/-! ### The calls of a unit -/

/-- The kind and the place of a call. -/
def Program.callAt? (p : Program) (n : NodeId) : Option (CallKind × Span) :=
  (p.callKind? n).map (·, p.span n)

namespace Java

namespace Sketch

/-- The new nodes have the calls of their sketches. -/
theorem callAt?_plantAll {p : Program} {a : NodeId} {sketches : List Sketch} (present : p.has a)
    (fresh : ∀ s ∈ sketches, s.Fresh) :
    ((List.range' p.size (listings sketches).length).map NodeId.mk).filterMap
      (plantAll a p sketches).callAt? = calls sketches := by
  let q := plantAll a p sketches
  have each : (List.range' p.size (listings sketches).length).map (fun i => q.callAt? ⟨i⟩) =
      (listings sketches).map call? := by
    refine List.ext_getElem (by simp) fun i short _ => ?_
    rw [List.length_map, List.length_range'] at short
    rw [List.getElem_map, List.getElem_map, List.getElem_range', Nat.one_mul]
    obtain ⟨s, stands⟩ := exists_stands (Nat.le_add_right p.size i) sketches (by omega)
    obtain ⟨parent, read⟩ := stands.get? present fresh
    have found := stands.getElem?_listings.2
    rw [Nat.add_sub_cancel_left, List.getElem?_eq_getElem short, Option.some.injEq] at found
    obtain ⟨role, kind, origin, parts⟩ := s
    rw [found, call?, Program.callAt?, Program.callKind?, Program.kind?, Program.span, read]
    simp [entry, callKind?_tieAll, span_tieAll]
  have joined := congrArg (List.filterMap id) each
  rw [List.filterMap_map, List.filterMap_map] at joined
  rw [List.filterMap_map]
  exact joined

end Sketch

/-- A new unit has the calls of the sketches of its file. -/
theorem calls_lowerSource (p : Program) (path : String) (origin : UnitOrigin)
    (contentHash text : String) (root : Syntax) :
    let q := lowerSource p path origin contentHash text root
    (q.descendants p.nextId).filterMap q.callAt? =
      Sketch.calls (fileSketches text.toList root) := by
  intro q
  let unit := fileUnit path origin contentHash text root
  let sketches := fileSketches text.toList root
  have planted : q = Sketch.plantAll p.nextId (p.addUnit unit) sketches :=
    lowerSource_eq p path origin contentHash text root
  have present := has_unit p unit
  have size : q.size - p.size = (Sketch.listings sketches).length + 1 := by
    rw [planted, Sketch.size_plantAll, Program.size_addUnit]
    omega
  -- the unit itself is no call
  have isUnit : q.callAt? ⟨p.size⟩ = none := by
    change q.callAt? p.nextId = none
    rw [planted, Program.callAt?, Program.callKind?, Program.kind?,
      Sketch.get?_plantAll_self present fresh_fileSketches, Program.get?_addUnit, if_pos rfl]
    simp only [Option.map_some, Option.bind_some, Sketch.callKind?_tieAll]
    rfl
  rw [Program.descendants_lowerSource, size, List.range'_succ, List.map_cons,
    List.filterMap_cons_none isUnit, planted,
    ← Sketch.callAt?_plantAll present fresh_fileSketches, Program.size_addUnit]

/-- A new unit has the calls of the tree, except for those in parts that are left out. -/
theorem lowering_keeps_calls (p : Program) (path : String) (origin : UnitOrigin)
    (contentHash text : String) {root : Syntax} (file : root.kind = "program")
    (grammatical : root.everywhere Syntax.fitsGrammar) :
    let q := lowerSource p path origin contentHash text root
    ∃ lost : List Located, (∀ m ∈ lost, Located.Within { node := root } m ∧ m.LeftOut) ∧
      root.calls.Perm
        ((q.descendants p.nextId).filterMap q.callAt? ++ lost.flatMap (·.node.calls)) := by
  intro q
  rw [calls_lowerSource]
  exact accounts_fileSketches _ file grammatical

end Java

/-! ### A creation with a qualifier -/

namespace Source

def qualifiedCreation : String := "class A { Object o = f().new I(); }"

def qualifiedCreationTree : Java.Syntax :=
  .node "program" none true ⟨⟨0, 0⟩, ⟨0, 35⟩⟩
    [.node "class_declaration" none true ⟨⟨0, 0⟩, ⟨0, 35⟩⟩
      [.node "identifier" (some "name") true ⟨⟨0, 6⟩, ⟨0, 7⟩⟩ [],
        .node "class_body" (some "body") true ⟨⟨0, 8⟩, ⟨0, 35⟩⟩
          [.node "field_declaration" none true ⟨⟨0, 10⟩, ⟨0, 33⟩⟩
            [.node "type_identifier" (some "type") true ⟨⟨0, 10⟩, ⟨0, 16⟩⟩ [],
              .node "variable_declarator" (some "declarator") true ⟨⟨0, 17⟩, ⟨0, 32⟩⟩
                [.node "identifier" (some "name") true ⟨⟨0, 17⟩, ⟨0, 18⟩⟩ [],
                  .node "object_creation_expression" (some "value") true ⟨⟨0, 21⟩, ⟨0, 32⟩⟩
                    [.node "method_invocation" none true ⟨⟨0, 21⟩, ⟨0, 24⟩⟩
                      [.node "identifier" (some "name") true ⟨⟨0, 21⟩, ⟨0, 22⟩⟩ [],
                        .node "argument_list" (some "arguments") true ⟨⟨0, 22⟩, ⟨0, 24⟩⟩ []],
                      .node "type_identifier" (some "type") true ⟨⟨0, 29⟩, ⟨0, 30⟩⟩ [],
                      .node "argument_list" (some "arguments") true ⟨⟨0, 30⟩, ⟨0, 32⟩⟩ []]]]]]]

theorem read?_qualifiedCreation :
    Java.Syntax.read? qualifiedCreation = some qualifiedCreationTree := by
  cbv

end Source

namespace Program

def qualifiedCreation : Program :=
  addUnit empty { path := "A.java" }
    |>.append ⟨0⟩ (.type { kind := .classType, name := "A" }) ⟨1, 1, 0, 35⟩
    |>.append ⟨1⟩ (.field { typeName := "Object", names := ["o"] }) ⟨1, 1, 10, 33⟩
    |>.append ⟨2⟩ (.objectCreation { typeName := "I" }) ⟨1, 1, 21, 32⟩

theorem lowerSource_qualifiedCreation :
    Java.lowerSource empty "A.java" .source "" Source.qualifiedCreation
      Source.qualifiedCreationTree = qualifiedCreation :=
  Java.lowerSource_eq_of_runFor 20 (by cbv)

end Program

namespace Java

/-- Of `f().new I()` the creation is kept, and what stands before the dot is not. -/
theorem lowering_keeps_calls_qualifiedCreation :
    Source.qualifiedCreationTree.kind = "program" ∧
      Source.qualifiedCreationTree.everywhere Syntax.fitsGrammar ∧
      ∃ lost : List Located, (∀ m ∈ lost,
        Located.Within { node := Source.qualifiedCreationTree } m ∧ m.LeftOut) ∧
        [(.objectCreation, ⟨1, 1, 21, 32⟩), (.methodCall, ⟨1, 1, 21, 24⟩)].Perm
          ([(.objectCreation, ⟨1, 1, 21, 32⟩)] ++ lost.flatMap (·.node.calls)) := by
  have file : Source.qualifiedCreationTree.kind = "program" := rfl
  have grammatical : Source.qualifiedCreationTree.everywhere Syntax.fitsGrammar := by cbv
  have keeps := lowering_keeps_calls .empty "A.java" .source "" Source.qualifiedCreation file
    grammatical
  rw [Program.lowerSource_qualifiedCreation] at keeps
  exact ⟨file, grammatical, keeps⟩

/-- The call `f()` in `f().new I()` stands in no annotation and in no body of an enum constant, and
still gets no node. -/
theorem lowering_loses_qualifier :
    Syntax.read? Source.qualifiedCreation = some Source.qualifiedCreationTree ∧
      Source.qualifiedCreationTree.everywhere (fun t =>
        t.kind != "annotation" && t.kind != "enum_constant") ∧
      Source.qualifiedCreationTree.calls =
        [(.objectCreation, ⟨1, 1, 21, 32⟩), (.methodCall, ⟨1, 1, 21, 24⟩)] ∧
      let q := lowerSource .empty "A.java" .source "" Source.qualifiedCreation
        Source.qualifiedCreationTree
      q.ids.filterMap q.callAt? = [(.objectCreation, ⟨1, 1, 21, 32⟩)] := by
  rw [Program.lowerSource_qualifiedCreation]
  exact ⟨Source.read?_qualifiedCreation, by cbv, by cbv, by cbv⟩

end Java

end JavaCallGraph
