import JavaCallGraph.Proofs.Java.CallOperands
import JavaCallGraph.Proofs.Java.CallsKept
import JavaCallGraph.Proofs.Java.Conformity
import JavaCallGraph.Proofs.Java.Sightings

/-!
Which calls lie in statements.

A call is exposed if the next declaration or statement around it is a callable. The nodes around a
syntax node tell the same as those above the node that it becomes. In the body of a callable stand
statements, so what is exposed there and no statement itself stands in a switch, which is none.
-/

namespace JavaCallGraph

namespace Java

/-! ### What stands around a node -/

/-- What a syntax node says of the calls in it, as the node does that it becomes. -/
def Treatment.exposes? : Treatment → Option Bool
  | .callable => some true
  | .type | .localVariable | .constructorInvocation | .statement => some false
  | .skipped | .field | .enumConstant | .initializer _ | .call | .passed => none

namespace Syntax

/-- Whether what stands in the first of some nodes, which stand in each other, belongs to a callable
without lying in a statement of it. -/
def exposes : List Syntax → Bool
  | [] => false
  | t :: above => ({ node := t, above : Located }.treatment.exposes?).getD (exposes above)

/-- Whether one of these nodes is a switch, up to the next declaration or statement. -/
def inSwitch : List Syntax → Bool
  | [] => false
  | t :: above => { node := t, above : Located }.treatment.exposes?.isNone &&
      (t.kind == "switch_expression" || inSwitch above)

/-- Whether what stands in these nodes is exposed, and not by a switch. -/
def strands (around : List Syntax) : Bool := exposes around && !inSwitch around

end Syntax

open Syntax (exposes inSwitch strands)

namespace Located

variable {n m : Located}

/-- A node and those around it. -/
def chain (n : Located) : List Syntax := n.node :: n.above

/-- A node that decides nothing for the calls in it. -/
def Plain (n : Located) : Prop := n.treatment.exposes? = none

theorem Plain.exposes (plain : n.Plain) : exposes n.chain = exposes n.above := by
  rw [chain, Syntax.exposes, show n.treatment.exposes? = none from plain]
  rfl

theorem Plain.strands (plain : n.Plain) :
    strands n.chain = (strands n.above && n.kind != "switch_expression") := by
  rw [Syntax.strands, plain.exposes, Syntax.strands, chain, inSwitch,
    show n.treatment.exposes? = none from plain, Option.isNone_none, Bool.true_and, bne,
    show n.node.kind = n.kind from rfl]
  cases Syntax.exposes n.above <;> cases n.kind == "switch_expression" <;> simp

theorem strands_of_decisive {e : Bool} (decisive : n.treatment.exposes? = some e) :
    strands n.chain = e := by
  rw [Syntax.strands, chain, Syntax.exposes, inSwitch, decisive]
  simp

/-- The nodes around what stands in a node, up to which all are plain. -/
structure Under (n : Located) (around : List Syntax) : Prop where
  exposes : exposes around = exposes n.chain
  strands : strands around → strands n.chain

theorem Under.refl (n : Located) : n.Under n.chain := ⟨rfl, id⟩

theorem Under.plain (under : n.Under m.above) (plain : m.Plain) : n.Under m.chain := by
  refine ⟨plain.exposes.trans under.exposes, fun stranded => under.strands ?_⟩
  rw [plain.strands, Bool.and_eq_true] at stranded
  exact stranded.1

theorem Under.trans {around : List Syntax} (outer : n.Under m.chain) (inner : m.Under around) :
    n.Under around :=
  ⟨inner.exposes.trans outer.exposes, fun stranded => outer.strands (inner.strands stranded)⟩

/-! ### Plain kinds -/

def isPlainKind (kind : String) : Bool := (treatments.lookup kind).all (·.exposes?.isNone)

theorem plain_of_kind (kind : isPlainKind n.kind) : n.Plain := by
  unfold Plain treatment
  rw [Bool.cond_eq_ite]
  split
  · split <;> rfl
  · unfold isPlainKind at kind
    cases found : treatments.lookup n.kind with
    | none => rfl
    | some t => simpa [found] using kind

theorem Plain.isPlainKind (plain : n.Plain) : isPlainKind n.kind := by
  unfold Plain treatment at plain
  unfold Located.isPlainKind
  split at plain
  · next block =>
    rw [block]
    rfl
  · cases found : treatments.lookup n.kind with
    | none => rfl
    | some t => simpa [found] using plain

theorem expressionKinds_plain : NodeTypes.expressionKinds.all isPlainKind := by cbv

/-- The bodies of declarations decide nothing. -/
theorem bodies_plain : treatments.all fun entry =>
    (NodeTypes.kindsIn (some "body") entry.1).all (·.all isPlainKind) := by
  cbv

end Located

/-! ### Jobs -/

namespace Job

/-- The nodes around what a job enters. -/
def around : Job → List Syntax
  | lower n _ | expression n _ => n.above
  | invocation n | component n _ => n.chain

end Job

namespace Located

variable {source : List Char} {n : Located} {inInterface : Bool} {role : Role} {j : Job}

theorem under_of_mem_namedChildren {c : Located} (among : c ∈ n.namedChildren) : n.Under c.above := by
  obtain ⟨t, -, rfl⟩ := List.mem_map.mp among
  exact .refl n

theorem under_of_child? {c : Located} {field : String} (found : n.child? field = some c) :
    n.Under c.above := by
  obtain ⟨t, -, rfl⟩ := Option.map_eq_some_iff.mp found
  exact .refl n

theorem under_of_mem_childJobs (member : j ∈ n.childJobs inInterface) : n.Under j.around := by
  obtain ⟨c, among, rfl⟩ := List.mem_map.mp member
  exact under_of_mem_namedChildren among

namespace Grammatical

theorem under_of_mem_bodyJobs (grammatical : n.Grammatical) {t : Treatment}
    (listed : (n.kind, t) ∈ treatments)
    (known : (NodeTypes.kindsIn (some "body") n.kind).any (·.all isNoCall))
    (member : j ∈ n.bodyJobs inInterface) : n.Under j.around := by
  unfold bodyJobs at member
  split at member
  · next body found =>
    obtain ⟨kinds, allowed, -⟩ := (Option.any_eq_true _ _).mp known
    have plain := List.all_eq_true.mp bodies_plain _ listed
    rw [allowed, Option.all_some, List.all_eq_true] at plain
    have plain := plain_of_kind (plain _ (grammatical.kind_of_child? allowed found))
    exact ((under_of_child? found).plain plain).trans (under_of_mem_childJobs member)
  · cases member

theorem under_arguments (grammatical : n.Grammatical)
    (kind : NodeTypes.kindsIn (some "arguments") n.kind = some ["argument_list"]) {list : Located}
    (found : n.child? "arguments" = some list) : n.Under list.chain := by
  refine (under_of_child? found).plain (plain_of_kind ?_)
  rw [List.mem_singleton.mp (grammatical.kind_of_child? kind found)]
  rfl

theorem under_of_mem_argumentJobs (grammatical : n.Grammatical)
    (kind : NodeTypes.kindsIn (some "arguments") n.kind = some ["argument_list"])
    (member : j ∈ n.argumentJobs) : n.Under j.around := by
  unfold argumentJobs at member
  split at member
  · next list found =>
    obtain ⟨a, among, rfl⟩ := List.mem_map.mp member
    exact (grammatical.under_arguments kind found).trans (under_of_mem_namedChildren among)
  · cases member

theorem under_of_mem_initializerJobs (grammatical : n.Grammatical)
    (declarators : NodeTypes.kindsIn (some "declarator") n.kind = some ["variable_declarator"])
    (member : j ∈ n.initializerJobs) : n.Under j.around := by
  obtain ⟨d, listed, value⟩ := List.mem_filterMap.mp member
  obtain ⟨v, found, rfl⟩ := Option.map_eq_some_iff.mp value
  obtain ⟨slots, known, -⟩ := Option.map_eq_some_iff.mp declarators
  rw [Located.declarators, ← grammatical.filter_field known, List.mem_filter] at listed
  have kind := grammatical.kind_of_field declarators listed.1 (eq_of_beq listed.2)
  have plain : d.Plain := by
    apply plain_of_kind
    rw [List.mem_singleton.mp kind]
    rfl
  exact ((under_of_mem_namedChildren listed.1).plain plain).trans (under_of_child? found)

theorem under_of_mem_expressionPlan (grammatical : n.Grammatical)
    (member : j ∈ (n.expressionPlan source role).jobs) : n.Under j.around := by
  have shaped := n.shaped source
  have ofOperand : ∀ {field : String}, j ∈ n.operandJobs field → n.Under j.around := by
    intro field member
    obtain ⟨operand, found, rfl⟩ := Option.map_eq_some_iff.mp (Option.mem_toList.mp member)
    exact under_of_child? found
  unfold expressionPlan at member
  generalize n.shape source = shape at shaped member
  cases shaped with
  | qualifiedThis | literal => cases member
  | fieldAccess => exact ofOperand member
  | other => exact under_of_mem_childJobs member
  | listed found =>
    have listed := mem_of_lookup found
    simp only [shapes, List.mem_cons, Prod.mk.injEq, List.not_mem_nil, or_false] at listed
    rcases listed with ⟨kind, rfl⟩ | ⟨kind, rfl⟩ | ⟨kind, rfl⟩ | ⟨kind, rfl⟩ | ⟨kind, rfl⟩ | ⟨kind, rfl⟩
    · dsimp only at member
      split at member
      · next first =>
        rw [List.mem_singleton.mp member]
        exact under_of_mem_namedChildren (List.mem_of_head? first)
      · cases member
    · rcases List.mem_append.mp member with receiver | argument
      · obtain ⟨r, found, rfl⟩ := Option.map_eq_some_iff.mp (Option.mem_toList.mp receiver)
        exact under_of_child? (child?_of_receiver? found)
      · exact grammatical.under_of_mem_argumentJobs (by rw [kind]; rfl) argument
    · rcases List.mem_append.mp member with argument | inBody
      · exact grammatical.under_of_mem_argumentJobs (by rw [kind]; rfl) argument
      · obtain ⟨body, listed, inside⟩ := List.mem_flatMap.mp inBody
        obtain ⟨among, isBody⟩ := List.mem_filter.mp listed
        have plain : body.Plain := by
          apply plain_of_kind
          rw [eq_of_beq isBody]
          rfl
        exact ((under_of_mem_namedChildren among).plain plain).trans (under_of_mem_childJobs inside)
    · cases member
    · cases member
    · exact ofOperand member

theorem under_of_mem_plan (grammatical : n.Grammatical)
    (member : j ∈ (n.plan source inInterface).jobs) : n.Under j.around := by
  have treated := treatedAs_treatment n
  unfold plan at member
  cases treatment : n.treatment with
  | skipped =>
    rw [treatment] at member
    cases member
  | type =>
    rw [treatment] at member treated
    rcases List.mem_append.mp member with component | inBody
    · obtain ⟨decl, -, rfl⟩ := List.mem_map.mp component
      exact .refl n
    · exact grammatical.under_of_mem_bodyJobs (mem_treatments treatment nofun nofun)
        (Bool.and_eq_true_iff.mp treated).2 inBody
  | callable =>
    rw [treatment] at member treated
    exact grammatical.under_of_mem_bodyJobs (mem_treatments treatment nofun nofun)
      (Bool.and_eq_true_iff.mp treated).2 member
  | field | localVariable =>
    rw [treatment] at member treated
    exact grammatical.under_of_mem_initializerJobs
      (eq_of_beq (Bool.and_eq_true_iff.mp treated).2) member
  | enumConstant =>
    rw [treatment] at treated
    simp only [treatment] at member
    split at member
    · next list found =>
      have inside := grammatical.under_arguments (by rw [eq_of_beq treated]; rfl) found
      exact inside.trans (under_of_mem_childJobs member)
    · cases member
  | constructorInvocation =>
    rw [treatment] at member
    rw [List.mem_singleton.mp member]
    exact .refl n
  | call =>
    rw [treatment] at member
    exact grammatical.under_of_mem_expressionPlan member
  | initializer | statement | passed =>
    rw [treatment] at member
    exact under_of_mem_childJobs member

end Grammatical

theorem exposes?_expressionPlan (source : List Char) (n : Located) (role : Role) :
    (n.expressionPlan source role).kind.bind (·.exposes?) = none := by
  unfold expressionPlan
  cases n.shape source with
  | parentheses =>
    dsimp only
    split <;> rfl
  | _ => rfl

/-- What a plan enters says the same as the syntax node. -/
theorem exposes?_plan (source : List Char) (n : Located) (inInterface : Bool) :
    (n.plan source inInterface).kind.bind (·.exposes?) = n.treatment.exposes? := by
  unfold plan
  cases n.treatment with
  | enumConstant =>
    dsimp only
    split <;> rfl
  | call => exact exposes?_expressionPlan source n .child
  | _ => rfl

end Located

namespace Job

variable {source : List Char} {j x : Job}

/-- The jobs of a plan are as exposed as what is entered leaves them. -/
theorem exposes_of_mem_plan (grammatical : j.node.Grammatical) (apt : j.Apt)
    (member : x ∈ (j.plan source).jobs) :
    exposes x.around = ((j.plan source).kind.bind (·.exposes?)).getD (exposes j.around) := by
  cases j with
  | lower n inInterface =>
    have under := Located.Grammatical.under_of_mem_plan grammatical member
    rw [plan, Located.exposes?_plan, under.exposes]
    rfl
  | expression n role =>
    have under := Located.Grammatical.under_of_mem_expressionPlan grammatical member
    have plain := Located.plain_of_kind
      (List.all_eq_true.mp Located.expressionKinds_plain n.kind apt)
    rw [plan, Located.exposes?_expressionPlan, under.exposes]
    exact plain.exposes
  | invocation n =>
    have kind : n.kind = "explicit_constructor_invocation" := apt
    have under := Located.Grammatical.under_of_mem_argumentJobs (n := n) grammatical
      (by rw [kind]; rfl) member
    exact under.exposes
  | component n decl => cases member

end Job

/-! ### What is exposed stands in a switch -/

/-- The kinds of nodes that may stand in a callable outside of its statements. -/
def bodyKinds : List String :=
  "explicit_constructor_invocation" :: "identifier" :: Grammar.signature.kinds .statement

theorem bodyKinds_closed : bodyKinds.all fun kind =>
    !Located.isPlainKind kind || kind == "switch_expression" ||
      ["identifier", "block", "break_statement", "continue_statement"].contains kind := by
  cbv

/-- A job is stranded only for the kinds that stand in bodies. -/
def Job.Covered (j : Job) : Prop :=
  strands j.around → ∃ n inInterface, j = .lower n inInterface ∧ n.kind ∈ bodyKinds

/-- Every node of the tree is such as the tables have it. -/
structure Located.Regular (n : Located) : Prop where
  grammatical : n.Grammatical
  bodies : n.node.everywhere (Syntax.fits NodeTypes.bodies)

namespace Located.Regular

variable {n m c : Located}

theorem within (regular : n.Regular) (inside : n.Within m) : m.Regular := by
  refine ⟨regular.grammatical.within inside, ?_⟩
  obtain ⟨-, bodies⟩ := regular
  induction inside with
  | refl => exact bodies
  | child _ among ih => exact (Syntax.everywhere_iff.mp ih).2 _ among

/-- In bodies there are the kinds for bodies again. -/
theorem kind_of_body (regular : n.Regular)
    (body : n.kind = "block" ∨ n.kind = "constructor_body" ∨ n.kind = "break_statement" ∨
      n.kind = "continue_statement") (among : c ∈ n.namedChildren) : c.kind ∈ bodyKinds := by
  obtain ⟨t, counted, rfl⟩ := mem_namedChildren_iff.mp among
  have fits := (Syntax.everywhere_iff.mp regular.bodies).1
  have slotOf : ∀ {kinds : List String}, NodeTypes.bodies.lookup n.kind = some [.plain kinds] →
      kinds ⊆ bodyKinds → (n.below t).kind ∈ bodyKinds := by
    intro kinds listed inside
    obtain ⟨s, slot, -, kind⟩ := (Syntax.of_fits listed fits).2.1 t counted
    rw [List.mem_singleton.mp slot] at kind
    exact inside kind
  rcases body with kind | kind | kind | kind
  · exact slotOf (by rw [kind]; rfl) fun k member => by simp [bodyKinds, member]
  · exact slotOf (by rw [kind]; rfl) fun k member => by
      rcases List.mem_cons.mp member with rfl | statement <;> simp [bodyKinds, *]
  · exact slotOf (by rw [kind]; rfl) (by simp [bodyKinds])
  · exact slotOf (by rw [kind]; rfl) (by simp [bodyKinds])

/-- In the bodies of callables stand the kinds for bodies. -/
theorem kind_of_callable (regular : n.Regular) (callable : n.treatment = .callable) {body : Located}
    (found : n.child? "body" = some body) (among : c ∈ body.namedChildren) : c.kind ∈ bodyKinds := by
  refine (regular.within (contains_of_child? found).within).kind_of_body ?_ among
  have ofKinds : ∀ kinds : List String, NodeTypes.kindsIn (some "body") n.kind = some kinds →
      kinds ⊆ ["block", "constructor_body"] → body.kind = "block" ∨ body.kind = "constructor_body" := by
    intro kinds allowed inside
    simpa using inside (regular.grammatical.kind_of_child? allowed found)
  have kind : n.kind = "method_declaration" ∨ n.kind = "constructor_declaration" ∨
      n.kind = "compact_constructor_declaration" := by
    simpa [treatments, statementKinds] using mem_treatments callable (by simp) (by simp)
  have body : body.kind = "block" ∨ body.kind = "constructor_body" := by
    rcases kind with kind | kind | kind
    · exact ofKinds ["block"] (by rw [kind]; rfl) (by simp)
    · exact ofKinds ["constructor_body"] (by rw [kind]; rfl) (by simp)
    · exact ofKinds ["block"] (by rw [kind]; rfl) (by simp)
  exact body.imp_right .inl

/-- What stands in a plain node for bodies, outside of switches, is for bodies as well. -/
theorem covered_of_plain (regular : n.Regular) (plain : n.Plain) (kind : n.kind ∈ bodyKinds)
    (other : n.kind ≠ "switch_expression") {source : List Char} {inInterface : Bool} {j : Job}
    (member : j ∈ (n.plan source inInterface).jobs) :
    ∃ c inInterface, j = .lower c inInterface ∧ c.kind ∈ bodyKinds := by
  have closed := List.all_eq_true.mp bodyKinds_closed _ kind
  simp only [plain.isPlainKind, other, Bool.not_true, Bool.false_or, Bool.or_eq_true, beq_iff_eq,
    List.contains_iff_mem, List.mem_cons, List.not_mem_nil, or_false, false_or] at closed
  have passed : n.treatment = .passed ∨ n.treatment = .initializer false := by
    unfold Located.treatment
    rcases closed with kind | kind | kind | kind
    · rw [kind]
      exact .inl rfl
    · rw [if_pos kind]
      cases n.parent?.any _ <;> simp
    · rw [kind]
      exact .inl rfl
    · rw [kind]
      exact .inl rfl
  obtain ⟨flag, member⟩ : ∃ flag, j ∈ n.childJobs flag := by
    rcases passed with passed | block
    · rw [Located.plan, passed] at member
      exact ⟨_, member⟩
    · rw [Located.plan, block] at member
      exact ⟨_, member⟩
  obtain ⟨c, among, rfl⟩ := List.mem_map.mp member
  refine ⟨c, flag, rfl, ?_⟩
  rcases closed with kind | kind | kind | kind
  · -- nothing stands in a name
    obtain ⟨s, slot, -⟩ := regular.grammatical.slot (by rw [kind]; rfl) among
    cases slot
  · exact regular.kind_of_body (.inl kind) among
  · exact regular.kind_of_body (.inr (.inr (.inl kind))) among
  · exact regular.kind_of_body (.inr (.inr (.inr kind))) among

end Located.Regular

theorem Job.covered_of_mem_plan {source : List Char} {j x : Job} (regular : j.node.Regular)
    (apt : j.Apt) (covered : j.Covered) (member : x ∈ (j.plan source).jobs) : x.Covered := by
  intro stranded
  cases j with
  | lower n inInterface =>
    have regular : n.Regular := regular
    have inside := (regular.grammatical.under_of_mem_plan member).strands stranded
    cases decides : n.treatment.exposes? with
    | some e =>
      rw [Located.strands_of_decisive decides] at inside
      have callable : n.treatment = .callable := by
        cases treatment : n.treatment <;> simp_all [Treatment.exposes?]
      rw [plan, Located.plan, callable] at member
      dsimp only at member
      unfold Located.bodyJobs at member
      split at member
      · next body found =>
        obtain ⟨c, among, rfl⟩ := List.mem_map.mp member
        exact ⟨c, false, rfl, regular.kind_of_callable callable found among⟩
      · cases member
    | none =>
      have plain : n.Plain := decides
      rw [plain.strands, Bool.and_eq_true, bne_iff_ne] at inside
      obtain ⟨m, flag, same, kind⟩ := covered inside.1
      cases same
      exact regular.covered_of_plain plain kind inside.2 member
  | expression n role =>
    have under := Located.Grammatical.under_of_mem_expressionPlan (n := n) regular.grammatical member
    have inside := under.strands stranded
    have plain := Located.plain_of_kind
      (List.all_eq_true.mp Located.expressionKinds_plain n.kind apt)
    rw [plain.strands, Bool.and_eq_true] at inside
    obtain ⟨m, flag, same, -⟩ := covered inside.1
    cases same
  | invocation n =>
    have kind : n.kind = "explicit_constructor_invocation" := apt
    have under := Located.Grammatical.under_of_mem_argumentJobs (n := n) regular.grammatical
      (by rw [kind]; rfl) member
    obtain ⟨m, flag, same, -⟩ := covered (under.strands stranded)
    cases same
  | component n decl => cases member

/-! ### Calls in a program -/

/-- A call stands for a syntax node: it has its kind and its place, and it is exposed if the nodes
around say so, which they do in switches only. -/
structure WrittenAt (q : Program) (x : NodeId) (n : Located) : Prop where
  kind : callKinds.lookup n.kind = q.callKind? x
  span : q.span x = n.extent.span
  exposed : q.exposed x = exposes n.chain
  covered : ¬ strands n.chain

theorem WrittenAt.kept {q r : Program} {x : NodeId} {n : Located} (written : WrittenAt q x n)
    (copied : q.Copied r 0) (forest : q.Forest) (present : q.has x) : WrittenAt r x n := by
  constructor
  · exact written.kind.trans (copied.kept_callKind? present).symm
  · exact (copied.kept_span present).trans written.span
  · exact (copied.kept_exposed forest present).trans written.exposed
  · exact written.covered

/-- A call in an expression is plain and no such node as stands in a body. -/
theorem Located.chain_of_call {n : Located}
    (call : n.kind = "method_invocation" ∨ n.kind = "object_creation_expression")
    (covered : strands n.above → n.kind ∈ bodyKinds) :
    exposes n.chain = exposes n.above ∧ ¬ strands n.chain := by
  have plain : n.Plain := by
    apply plain_of_kind
    rcases call with kind | kind <;> rw [kind] <;> rfl
  have apart : n.kind ∉ bodyKinds := by
    rcases call with kind | kind <;> rw [kind] <;> decide +kernel
  refine ⟨plain.exposes, fun stranded => apart (covered ?_)⟩
  rw [plain.strands, Bool.and_eq_true] at stranded
  exact stranded.1

namespace Job

variable {source : List Char} {m : Located} {j : Job} {k : NodeKind}

theorem PlansCall.lookup_kind {n : Located} {jobs : List Job} (plans : PlansCall source n k jobs) :
    callKinds.lookup n.kind = k.callKind? := by
  cases plans with
  | _ kind =>
    rw [kind]
    rfl

/-- Other calls than those of constructors are expressions. -/
theorem PlansCall.kind {n : Located} {jobs : List Job} (plans : PlansCall source n k jobs)
    (other : n.kind ≠ "explicit_constructor_invocation") :
    n.kind = "method_invocation" ∨ n.kind = "object_creation_expression" := by
  cases plans with
  | methodCall kind => exact .inl kind
  | objectCreation kind => exact .inr kind
  | constructorInvocation kind => exact absurd kind other

/-- What the nodes around say of a call that a job enters. -/
theorem chain_of_call (apt : j.Apt) (covered : j.Covered) (entered : (j.plan source).kind = some k)
    (isCall : k.isCall) :
    callKinds.lookup j.node.kind = k.callKind? ∧ exposes j.node.chain = exposes j.around ∧
      ¬ strands j.node.chain := by
  have proper : j.Proper := by
    cases j with
    | invocation n => exact apt
    | _ => trivial
  have plans := plansCall_of_plan proper entered isCall
  refine ⟨plans.lookup_kind, ?_⟩
  cases j with
  | lower n inInterface =>
    have other : n.kind ≠ "explicit_constructor_invocation" := by
      -- that becomes a statement, with the call in it
      intro kind
      have treatment : n.treatment = .constructorInvocation := by
        rw [Located.treatment, kind]
        rfl
      rw [plan, Located.plan, treatment] at entered
      cases entered
      cases isCall
    refine Located.chain_of_call (plans.kind other) fun stranded => ?_
    obtain ⟨_, _, same, kind⟩ := covered stranded
    cases same
    exact kind
  | expression n role =>
    have other : n.kind ≠ "explicit_constructor_invocation" := by
      intro kind
      have listed : n.kind ∈ NodeTypes.expressionKinds := apt
      rw [kind] at listed
      revert listed
      decide +kernel
    refine Located.chain_of_call (plans.kind other) fun stranded => ?_
    obtain ⟨_, _, same, -⟩ := covered stranded
    cases same
  | invocation n =>
    refine ⟨rfl, fun stranded => ?_⟩
    obtain ⟨_, _, same, -⟩ := covered stranded
    cases same
  | component n decl =>
    cases entered
    cases isCall

/-- Every call that some jobs append stands for a node in another one. -/
def Writes (source : List Char) (m : Located) (jobs : List Job) : Prop :=
  ∀ {p : Program} {a : NodeId}, p.Grown → p.has a → (∀ j ∈ jobs, exposes j.around = p.exposes a) →
    ∀ x, p.size ≤ x.index → (plantAll source a p jobs).callKind? x ≠ none →
      ∃ n, m.Within n ∧ WrittenAt (plantAll source a p jobs) x n

theorem writes_of_forall {jobs : List Job} (each : ∀ j ∈ jobs, Writes source m [j]) :
    Writes source m jobs := by
  intro p a grown present same x late isCall
  induction jobs generalizing p with
  | nil =>
    obtain ⟨kind, isCall⟩ := Option.ne_none_iff_exists'.mp isCall
    have present : p.has x := Program.has_of_callKind? isCall
    exact absurd (Program.has_iff.mp present) (Nat.not_lt.mpr late)
  | cons j rest ih =>
    rw [List.forall_mem_cons] at each same
    rw [← List.singleton_append, plantAll_append] at isCall ⊢
    let q := plantAll source a p [j]
    have grown' : q.Grown := grown_plantAll grown present [j]
    have present' : q.has a := has_plantAll present [j] present
    have same' : q.exposes a = p.exposes a :=
      (copied_plantAll source present [j]).kept_exposes grown.forest present
    by_cases early : q.has x
    · have later := copied_plantAll source present' rest
      obtain ⟨n, within, written⟩ := each.1 grown present (by simpa using same.1) x late
        (later.kept_callKind? early ▸ isCall)
      exact ⟨n, within, written.kept later grown'.forest early⟩
    · exact ih each.2 grown' present' (fun j member => (same.2 j member).trans same'.symm)
        (Nat.not_lt.mp (mt Program.has_iff.mpr early)) isCall

/-- The calls that a job appends are those written in its node. -/
theorem writes (regular : j.node.Regular) (apt : j.Apt) (covered : j.Covered) :
    Writes source j.node [j] := by
  induction j using Job.induction source with
  | step j ih =>
    have below : Writes source j.node (j.plan source).jobs := by
      refine writes_of_forall fun i member p a grown present same x late isCall => ?_
      have within := within_of_mem_plan member
      obtain ⟨n, inside, written⟩ := ih i member (regular.within within)
        (apt_of_mem_plan regular.grammatical apt member)
        (covered_of_mem_plan regular apt covered member) grown present same x late isCall
      exact ⟨n, within.trans inside, written⟩
    intro p a grown present same x late isCall
    have same : exposes j.around = p.exposes a := same j List.mem_cons_self
    have inside : ∀ i ∈ (j.plan source).jobs, exposes i.around =
        ((j.plan source).kind.bind (·.exposes?)).getD (p.exposes a) := fun i member => by
      rw [exposes_of_mem_plan regular.grammatical apt member, same]
    rw [plantAll_singleton] at isCall ⊢
    cases entered : (j.plan source).kind with
    | none =>
      rw [entered] at isCall inside
      exact below grown present inside x late isCall
    | some k =>
      rw [entered] at isCall inside
      dsimp only at isCall ⊢
      let attach := j.role.attach a
      let q := attach.append k j.node.extent.span p
      have attached : p.has attach.parent := by rwa [Role.parent_attach]
      have grown' : q.Grown := attach.grown_append k _ grown attached
      have new : q.has p.nextId := attach.has_new k _ p
      have above : q.parent? p.nextId = some a := by
        rw [attach.parent?_new, Role.parent_attach]
      have exposed : q.exposed p.nextId = p.exposes a :=
        (grown'.forest.exposed_child above).trans
          ((attach.copied_append k _ p).kept_exposes grown.forest present)
      have leaves : q.exposes p.nextId = (k.exposes?).getD (p.exposes a) := by
        rw [Program.exposes_eq, exposed, attach.bind_kind?_new k _ p (by rintro (_ | _ | _) <;> rfl)]
      by_cases here : x = p.nextId
      · subst here
        have copied := copied_plantAll source new (j.plan source).jobs
        have kind : q.callKind? p.nextId = k.callKind? :=
          attach.bind_kind?_new k _ p (by rintro (_ | _ | _) <;> rfl)
        rw [copied.kept_callKind? new, kind] at isCall
        have isCall : k.isCall := Option.isSome_iff_ne_none.mpr isCall
        obtain ⟨named, chain, apart⟩ := chain_of_call apt covered entered isCall
        refine ⟨j.node, .refl, WrittenAt.kept ?_ copied grown'.forest new⟩
        refine ⟨named.trans kind.symm, attach.span_new k _ p, ?_, apart⟩
        rw [exposed, chain, same]
      · refine below grown' new (fun i member => (inside i member).trans leaves.symm) x ?_ isCall
        rw [attach.size_append]
        exact Nat.lt_of_le_of_ne late fun last => here (congrArg NodeId.mk last.symm)

end Job

/-- The calls of a file are those written in it. -/
theorem exists_writtenAt {p : Program} (grown : p.Grown) {path : String} {origin : UnitOrigin}
    {contentHash text : String} {root : Syntax} (file : root.kind = "program")
    (regular : Located.Regular { node := root }) {x : NodeId} (late : p.size ≤ x.index)
    (isCall : (lowerSource p path origin contentHash text root).callKind? x ≠ none) :
    ∃ n, Located.Within { node := root } n ∧
      WrittenAt (lowerSource p path origin contentHash text root) x n := by
  let n : Located := { node := root }
  let q := p.addUnit (fileUnit path origin contentHash text root)
  have new : q.has p.nextId := has_unit p _
  have kind : q.kind? p.nextId = some (.unit (fileUnit path origin contentHash text root)) := by
    rw [Program.kind?, Program.get?_addUnit, if_pos rfl]
    rfl
  have sheltered : q.exposes p.nextId = false := by
    have top : q.ancestors p.nextId = [] := by
      apply Program.Forest.ancestors_root
      rw [Program.parent?_addUnit, Program.parent?, Program.get?_nextId]
      rfl
    rw [Program.exposes_eq, Program.exposed, top, kind]
    rfl
  have around : exposes n.chain = false := by
    have plain : n.Plain := Located.plain_of_kind (by rw [show n.kind = "program" from file]; rfl)
    exact plain.exposes
  have writes : Job.Writes text.toList n (n.childJobs false) := by
    refine Job.writes_of_forall fun j member p a grown present same x late isCall => ?_
    have within := (Located.inside_of_mem_childJobs member).contains.within
    have covered : j.Covered := by
      intro stranded
      rw [strands, (Located.under_of_mem_childJobs member).exposes, around] at stranded
      cases stranded
    obtain ⟨m, inside, written⟩ := Job.writes (regular.within within)
      (Located.apt_of_mem_childJobs member) covered grown present same x late isCall
    exact ⟨m, within.trans inside, written⟩
  rw [lowerSource_eq] at isCall ⊢
  by_cases here : x = p.nextId
  · -- the unit is no call
    subst here
    have kept := (Job.copied_plantAll text.toList new (n.childJobs false)).kept_callKind? new
    have noCall : q.callKind? p.nextId = none := congrArg (Option.bind · NodeKind.callKind?) kind
    exact absurd (kept.trans noCall) isCall
  · refine writes (grown.addUnit _) new (fun j member => ?_) x ?_ isCall
    · rw [(Located.under_of_mem_childJobs member).exposes, around, sheltered]
    · rw [Program.size_addUnit]
      exact Nat.lt_of_le_of_ne late fun last => here (congrArg NodeId.mk last.symm)

end Java

end JavaCallGraph
