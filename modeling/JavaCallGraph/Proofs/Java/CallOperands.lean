import JavaCallGraph.Proofs.Java.Layout
import JavaCallGraph.Proofs.Java.SourceOrder

/-!
The operands of lowered calls.

Receivers and arguments are entered one after the other, each by a task of its own, long after the
call. Parentheses hand their task on to what stands in them, so every operand becomes one node all
the same. Every new node is the node of a sketch, and the sketch of a call has its operands as parts:
a call has one argument for each that is written, and its children are its operands in the order of
the text.
-/

namespace JavaCallGraph

namespace Java

/-! ### What is written -/

namespace Located

/-- The expression in parentheses, however many. Parentheses with nothing in them stay. -/
def unwrapped (n : Located) : Located :=
  if n.kind = "parenthesized_expression" then
    match _h : n.namedChildren.head? with
    | some inner => inner.unwrapped
    | none => n
  else n
termination_by sizeOf n.node
decreasing_by exact sizeOf_lt_of_mem_namedChildren (List.mem_of_head? _h)

/-- The expressions in the argument list. -/
def arguments (n : Located) : List Located :=
  match n.child? "arguments" with
  | some list => list.namedChildren
  | none => []

theorem sizeOf_lt_of_mem_arguments {n a : Located} (member : a ∈ n.arguments) :
    sizeOf a.node < sizeOf n.node := by
  unfold arguments at member
  split at member
  · next found =>
    exact Nat.lt_trans (sizeOf_lt_of_mem_namedChildren member) (sizeOf_lt_of_child? found)
  · cases member

/-- What becomes a node first in lowering a node: itself if it is kept, and what stands in it
otherwise. -/
def heads (n : Located) : List Located :=
  match n.treatment with
  | .skipped => []
  | .enumConstant => n.arguments.attach.flatMap fun a => a.1.heads
  | .passed => n.namedChildren.attach.flatMap fun c => c.1.heads
  | _ => [n]
termination_by sizeOf n.node
decreasing_by
  · exact sizeOf_lt_of_mem_arguments a.2
  · exact sizeOf_lt_of_mem_namedChildren c.2

theorem argumentJobs_eq (n : Located) :
    n.argumentJobs = n.arguments.map (.expression · .argument) := by
  unfold argumentJobs arguments
  cases n.child? "arguments" <;> rfl

end Located

/-! ### The sketches of operands and members -/

namespace Located

variable {source : List Char} {n : Located}

theorem kind_of_parentheses (is : n.shape source = .parentheses) :
    n.kind = "parenthesized_expression" := by
  simpa [shapes] using mem_shapes is (by decide)

theorem shape_of_call (call : n.treatment = .call) :
    n.shape source = .methodInvocation ∨ n.shape source = .objectCreation := by
  have kind : n.kind = "method_invocation" ∨ n.kind = "object_creation_expression" := by
    simpa [treatments, statementKinds] using mem_treatments call nofun nofun
  rcases kind with method | creation
  · exact .inl (shape_of_kind (by rw [method]; rfl))
  · exact .inr (shape_of_kind (by rw [creation]; rfl))

end Located

namespace Job

/-- An expression becomes one node, that of what stands in its parentheses. -/
theorem sketches_expression (source : List Char) (n : Located) (role : Role) :
    ∃ k parts, (expression n role).sketches source = [.node role k n.unwrapped parts] := by
  fun_induction Located.unwrapped n with
  | case1 n wrapped inner first ih =>
    have shape : n.shape source = .parentheses := Located.shape_of_kind (by rw [wrapped]; rfl)
    rw [sketches_eq, plan, Located.expressionPlan, shape]
    simp only [first, List.flatMap_singleton]
    exact ih
  | case2 n wrapped nothing =>
    have shape : n.shape source = .parentheses := Located.shape_of_kind (by rw [wrapped]; rfl)
    rw [sketches_eq, plan, Located.expressionPlan, shape]
    simp only [nothing]
    exact ⟨_, _, rfl⟩
  | case3 n bare =>
    rw [sketches_eq, plan, Located.expressionPlan]
    cases shape : n.shape source with
    | parentheses => exact absurd (Located.kind_of_parentheses shape) bare
    | _ => exact ⟨_, _, rfl⟩

theorem sketches_expressions (source : List Char) (nodes : List Located) (role : Role) :
    let operands := (nodes.map (.expression · role)).flatMap (Job.sketches source)
    operands.map Sketch.origin = nodes.map Located.unwrapped ∧ ∀ s ∈ operands, s.role = role := by
  dsimp only
  induction nodes with
  | nil => exact ⟨rfl, nofun⟩
  | cons n rest ih =>
    obtain ⟨k, parts, here⟩ := sketches_expression source n role
    obtain ⟨origins, roles⟩ := ih
    rw [List.map_cons, List.flatMap_cons, here, List.map_append, origins, List.map_cons]
    exact ⟨rfl, List.forall_mem_append.mpr ⟨by simp [Sketch.role], roles⟩⟩

/-- Sketches for the nodes of a list, as children of one. -/
structure Heads (sketches : List Sketch) (nodes : List Located) : Prop where
  origins : sketches.map Sketch.origin = nodes
  roles : ∀ s ∈ sketches, s.role = .child

theorem Heads.flatMap {α : Type} {items : List α} {f : α → List Sketch} {g : α → List Located}
    (each : ∀ x ∈ items, Heads (f x) (g x)) : Heads (items.flatMap f) (items.flatMap g) := by
  constructor
  · rw [List.map_flatMap]
    exact List.flatMap_congr fun x member => (each x member).origins
  · intro s member
    obtain ⟨x, listed, inside⟩ := List.mem_flatMap.mp member
    exact (each x listed).roles s inside

/-- What a node is lowered to starts with the nodes that are kept first. -/
theorem heads_lower (source : List Char) (n : Located) (inInterface : Bool) :
    Heads ((lower n inInterface).sketches source) n.heads := by
  have all : ∀ nodes : List Located,
      (∀ c : { c // c ∈ nodes }, Heads ((lower c.1 inInterface).sketches source) c.1.heads) →
      Heads ((nodes.map (.lower · inInterface)).flatMap (sketches source))
        (nodes.attach.flatMap fun c => c.1.heads) := by
    intro nodes each
    rw [List.flatMap_map, List.flatMap_subtype (g := Located.heads) (by simp),
      List.unattach_attach]
    exact .flatMap fun c member => each ⟨c, member⟩
  fun_induction Located.heads n with
  | case1 n skipped =>
    rw [sketches_eq, plan, Located.plan, skipped]
    exact ⟨rfl, List.forall_mem_nil _⟩
  | case2 n constant ih =>
    have plan : (lower n inInterface).plan source =
        ⟨none, n.arguments.map (.lower · inInterface)⟩ := by
      rw [plan, Located.plan, constant, Located.arguments]
      cases n.child? "arguments" <;> rfl
    rw [sketches_eq, plan]
    exact all n.arguments ih
  | case3 n passed ih =>
    rw [sketches_eq, plan, Located.plan, passed]
    exact all n.namedChildren ih
  | case4 n notSkipped notConstant notPassed =>
    rw [sketches_eq, plan, Located.plan]
    cases treatment : n.treatment with
    | skipped => exact absurd treatment notSkipped
    | enumConstant => exact absurd treatment notConstant
    | passed => exact absurd treatment notPassed
    | call =>
      rcases Located.shape_of_call treatment with method | creation
      · rw [Located.expressionPlan, method]
        exact ⟨rfl, by simp [Sketch.role, role]⟩
      · rw [Located.expressionPlan, creation]
        exact ⟨rfl, by simp [Sketch.role, role]⟩
    | _ => exact ⟨rfl, by simp [Sketch.role, role]⟩

/-! ### Plans that enter calls -/

/-- How a call comes to be entered. -/
inductive PlansCall (source : List Char) (n : Located) : NodeKind → List Job → Prop where
  | methodCall : n.kind = "method_invocation" →
    PlansCall source n (.methodCall (n.methodCall source))
      ((n.receiver? source).toList.map (.expression · .receiver) ++
        n.arguments.map (.expression · .argument))
  | objectCreation : n.kind = "object_creation_expression" →
    PlansCall source n (.objectCreation (n.objectCreation source))
      (n.arguments.map (.expression · .argument) ++ n.classBodies.flatMap (·.childJobs false))
  | constructorInvocation : n.kind = "explicit_constructor_invocation" →
    PlansCall source n (.constructorInvocation n.constructorInvocation)
      (n.arguments.map (.expression · .argument))

/-- The call in a constructor invocation is only entered for one. -/
def Proper : Job → Prop
  | invocation n => n.kind = "explicit_constructor_invocation"
  | _ => True

variable {source : List Char} {n : Located} {j : Job} {k : NodeKind}

theorem plansCall_of_expressionPlan {role : Role}
    (entered : (n.expressionPlan source role).kind = some k) (call : k.isCall) :
    PlansCall source n k (n.expressionPlan source role).jobs := by
  unfold Located.expressionPlan at entered ⊢
  cases shape : n.shape source with
  | methodInvocation =>
    simp only [shape] at entered ⊢
    cases entered
    have kind : n.kind = "method_invocation" := by
      simpa [shapes] using Located.mem_shapes shape (by decide)
    rw [Located.argumentJobs_eq, Located.receiverJobs, Option.toList_map]
    exact .methodCall kind
  | objectCreation =>
    simp only [shape] at entered ⊢
    cases entered
    have kind : n.kind = "object_creation_expression" := by
      simpa [shapes] using Located.mem_shapes shape (by decide)
    rw [Located.argumentJobs_eq]
    exact .objectCreation kind
  | parentheses =>
    simp only [shape] at entered
    split at entered <;> cases entered
    cases call
  | _ =>
    simp only [shape] at entered
    cases entered
    cases call

theorem plansCall_of_plan (proper : j.Proper) (entered : (j.plan source).kind = some k)
    (call : k.isCall) : PlansCall source j.node k (j.plan source).jobs := by
  cases j with
  | lower n inInterface =>
    rw [plan, Located.plan] at entered ⊢
    cases treatment : n.treatment with
    | call =>
      simp only [treatment] at entered ⊢
      exact plansCall_of_expressionPlan entered call
    | enumConstant =>
      simp only [treatment] at entered
      split at entered <;> cases entered
    | _ =>
      simp only [treatment] at entered
      cases entered
      try cases call
  | expression n role => exact plansCall_of_expressionPlan entered call
  | invocation n =>
    cases entered
    rw [plan, Located.argumentJobs_eq]
    exact .constructorInvocation proper
  | component n decl =>
    cases entered
    cases call

theorem proper_of_inside (inside : j.Inside n) : j.Proper := by
  cases inside <;> trivial

theorem proper_of_mem_plan {x : Job} (member : x ∈ (j.plan source).jobs) : x.Proper := by
  cases j with
  | lower n inInterface =>
    rcases Located.mem_plan_cases member with inside | ⟨decl, rfl⟩ | ⟨rfl, treatment⟩
    · exact proper_of_inside inside
    · trivial
    · rw [Proper]
      simpa [treatments, statementKinds] using Located.mem_treatments treatment nofun nofun
  | expression n role => exact proper_of_inside (Located.inside_of_mem_expressionPlan member)
  | invocation n => exact proper_of_inside (Located.inside_of_mem_argumentJobs member)
  | component n decl => cases member

/-- A sketch is the one that a job leaves at a node. -/
def Leaves (source : List Char) (x : Job) (s : Sketch) : Prop :=
  ∃ k, (x.plan source).kind = some k ∧
    s = .node x.role k x.node ((x.plan source).jobs.flatMap (sketches source))

/-- Every sketch is that of a job. -/
theorem exists_of_mem_listings {s : Sketch} (member : s ∈ Sketch.listings (j.sketches source))
    (proper : j.Proper) :
    ∃ x : Job, j.node.Within x.node ∧ x.Proper ∧ x.Leaves source s := by
  induction j using Job.induction source with
  | step j ih =>
    have inside : s ∈ Sketch.listings ((j.plan source).jobs.flatMap (sketches source)) →
        ∃ x : Job, j.node.Within x.node ∧ x.Proper ∧ x.Leaves source s := by
      intro member
      rw [Sketch.listings_flatMap] at member
      obtain ⟨x, listed, below⟩ := List.mem_flatMap.mp member
      obtain ⟨y, within, left⟩ := ih x listed below (proper_of_mem_plan listed)
      exact ⟨y, (within_of_mem_plan listed).trans within, left⟩
    rw [sketches_eq] at member
    cases entered : (j.plan source).kind with
    | none =>
      rw [entered] at member
      exact inside member
    | some k =>
      rw [entered, Sketch.listings, Sketch.listing, Sketch.listings, List.append_nil,
        List.mem_cons] at member
      rcases member with rfl | below
      · exact ⟨j, .refl, proper, k, entered, rfl⟩
      · exact inside below

end Job

/-- Every sketch of a file is that of a job for a node in the file. -/
theorem exists_of_mem_fileSketches {source : List Char} {root : Syntax} {s : Sketch}
    (member : s ∈ Sketch.listings (fileSketches source root)) :
    ∃ x : Job, Located.Within { node := root } x.node ∧ x.Proper ∧ x.Leaves source s := by
  rw [fileSketches, Sketch.listings_flatMap] at member
  obtain ⟨j, listed, inside⟩ := List.mem_flatMap.mp member
  have child := Located.inside_of_mem_childJobs listed
  obtain ⟨x, within, left⟩ := Job.exists_of_mem_listings inside (Job.proper_of_inside child)
  exact ⟨x, child.contains.within.trans within, left⟩

end Java

/-- Record more arguments of a call. -/
def NodeKind.addArguments (ids : List NodeId) : NodeKind → NodeKind
  | methodCall c => methodCall { c with arguments := c.arguments ++ ids }
  | objectCreation c => objectCreation { c with arguments := c.arguments ++ ids }
  | constructorInvocation c => constructorInvocation { c with arguments := c.arguments ++ ids }
  | k => k

theorem NodeKind.foldl_addArgument (ids : List NodeId) (k : NodeKind) :
    ids.foldl (fun k id => k.addArgument id) k = k.addArguments ids := by
  induction ids generalizing k with
  | nil => cases k <;> simp [addArguments]
  | cons id rest ih =>
    rw [List.foldl_cons, ih]
    cases k <;> simp [addArguments, addArgument]

namespace Java

/-! ### Operands of a node -/

/-- If the node is a call, it has the operands that are written. -/
def KeepsOperands (syntaxOf : NodeId → Located) (n : Located) (node : Node) : Prop :=
  match node.kind with
  | .methodCall c =>
    n.kind = "method_invocation" ∧
      c.arguments.map syntaxOf = n.arguments.map Located.unwrapped ∧
      match c.scope with
      | .expression e =>
        node.children = e :: c.arguments ∧
          (n.child? "object").map Located.unwrapped = some (syntaxOf e)
      | _ => node.children = c.arguments
  | .objectCreation c =>
    n.kind = "object_creation_expression" ∧
      c.arguments.map syntaxOf = n.arguments.map Located.unwrapped ∧
      ∃ members, node.children = c.arguments ++ members ∧
        members.map syntaxOf =
          n.classBodies.flatMap fun body => body.namedChildren.flatMap Located.heads
  | .constructorInvocation c =>
    n.kind = "explicit_constructor_invocation" ∧
      c.arguments.map syntaxOf = n.arguments.map Located.unwrapped ∧ node.children = c.arguments
  | _ => True

namespace KeepsOperands

variable {source : List Char} {syntaxOf : NodeId → Located} {n : Located} {k : NodeKind}

theorem of_not_isCall {node : Node} (other : ¬ node.kind.isCall) :
    KeepsOperands syntaxOf n node := by
  unfold KeepsOperands
  cases kind : node.kind with
  | methodCall c => simp [kind, NodeKind.isCall, NodeKind.callKind?] at other
  | objectCreation c => simp [kind, NodeKind.isCall, NodeKind.callKind?] at other
  | constructorInvocation c => simp [kind, NodeKind.isCall, NodeKind.callKind?] at other
  | _ => trivial

/-- A node that is tied to receivers, then to arguments and then to other nodes. -/
theorem tieAll_groups {parts receivers arguments others : List Sketch} {first : Nat} (node : Node)
    (split : parts = receivers ++ (arguments ++ others))
    (asReceivers : ∀ s ∈ receivers, s.role = .receiver)
    (asArguments : ∀ s ∈ arguments, s.role = .argument) (asOthers : ∀ s ∈ others, s.role = .child)
    (origins : (Sketch.numbers first parts).map syntaxOf = parts.map Sketch.origin) :
    ∃ rs as os, rs.map syntaxOf = receivers.map Sketch.origin ∧
      as.map syntaxOf = arguments.map Sketch.origin ∧ os.map syntaxOf = others.map Sketch.origin ∧
      (Sketch.tieAll first node parts).children = node.children ++ (rs ++ (as ++ os)) ∧
      (Sketch.tieAll first node parts).kind =
        (rs.foldl (fun k id => k.setReceiver id) node.kind).addArguments as := by
  have untouched : ∀ (ids : List NodeId) (k : NodeKind),
      ids.foldl (fun k id => Role.child.record id k) k = k := by
    intro ids k
    induction ids with
    | nil => rfl
    | cons id rest ih => exact ih
  have children := Sketch.children_tieAll first node parts
  rw [split, Sketch.numbers_append, Sketch.numbers_append] at children origins
  simp only [List.map_append] at origins
  obtain ⟨ofReceivers, rest⟩ := List.append_inj origins (by simp [Sketch.length_numbers])
  obtain ⟨ofArguments, ofOthers⟩ := List.append_inj rest (by simp [Sketch.length_numbers])
  refine ⟨_, _, _, ofReceivers, ofArguments, ofOthers, split ▸ children, ?_⟩
  rw [split, Sketch.tieAll_append, Sketch.tieAll_append, Sketch.kind_tieAll asOthers, untouched,
    Sketch.kind_tieAll asArguments, Sketch.kind_tieAll asReceivers]
  exact NodeKind.foldl_addArgument _ _

/-- The sketches of a call, in the groups of its operands, give it what is written. -/
theorem of_plansCall {jobs : List Job} (calls : Job.PlansCall source n k jobs) (role : Role)
    (parent : NodeId) (first : Nat)
    (origins : (Sketch.numbers first (jobs.flatMap (Job.sketches source))).map syntaxOf =
      (jobs.flatMap (Job.sketches source)).map Sketch.origin) :
    KeepsOperands syntaxOf n
      (Sketch.entry parent first (.node role k n (jobs.flatMap (Job.sketches source)))) := by
  obtain ⟨written, asArguments⟩ := Job.sketches_expressions source n.arguments .argument
  rw [Sketch.entry]
  generalize entered : ({ kind := k, parent := some parent, span := n.extent.span } : Node) = node
  have entered : node.kind = k ∧ node.children = [] := entered ▸ ⟨rfl, rfl⟩
  unfold KeepsOperands
  cases calls with
  | methodCall kind =>
    obtain ⟨object, asReceivers⟩ :=
      Job.sketches_expressions source (n.receiver? source).toList .receiver
    obtain ⟨rs, as, os, ofReceivers, ofArguments, ofOthers, children, recorded⟩ :=
      tieAll_groups node (by rw [List.flatMap_append, List.append_nil]) asReceivers asArguments
        (List.forall_mem_nil _) origins
    rw [children, recorded, entered.1, entered.2, List.map_eq_nil_iff.mp ofOthers]
    rw [object] at ofReceivers
    rw [written] at ofArguments
    cases receiver : n.receiver? source with
    | none =>
      rw [receiver] at ofReceivers
      rw [List.map_eq_nil_iff.mp ofReceivers]
      refine ⟨kind, ofArguments, ?_⟩
      -- before a receiver is set the scope names no node
      split
      · next e scope =>
        have bare := (Located.bare_methodCall source n).references
        generalize n.methodCall source = c at bare scope
        obtain ⟨name, form, arguments⟩ := c
        cases scope
        cases bare
      · rw [List.append_nil]
        rfl
    | some r =>
      rw [receiver] at ofReceivers
      obtain ⟨e, rfl, same⟩ := List.map_eq_singleton_iff.mp ofReceivers
      refine ⟨kind, ofArguments, ?_, ?_⟩
      · simp [Located.methodCall]
      rw [Located.child?_of_receiver? receiver, same]
      rfl
  | objectCreation kind =>
    have members : Job.Heads ((n.classBodies.flatMap (·.childJobs false)).flatMap
        (Job.sketches source))
        (n.classBodies.flatMap fun body => body.namedChildren.flatMap Located.heads) := by
      rw [List.flatMap_assoc]
      refine .flatMap fun body _ => ?_
      rw [Located.childJobs, List.flatMap_map]
      exact .flatMap fun c _ => Job.heads_lower source c false
    obtain ⟨rs, as, os, ofReceivers, ofArguments, ofOthers, children, recorded⟩ :=
      tieAll_groups node (by rw [List.flatMap_append, List.nil_append]) (List.forall_mem_nil _)
        asArguments members.roles origins
    rw [children, recorded, entered.1, entered.2, List.map_eq_nil_iff.mp ofReceivers]
    exact ⟨kind, ofArguments.trans written, os, rfl, ofOthers.trans members.origins⟩
  | constructorInvocation kind =>
    obtain ⟨rs, as, os, ofReceivers, ofArguments, ofOthers, children, recorded⟩ :=
      tieAll_groups node (by rw [List.nil_append, List.append_nil]) (List.forall_mem_nil _)
        asArguments (List.forall_mem_nil _) origins
    rw [children, recorded, entered.1, entered.2, List.map_eq_nil_iff.mp ofReceivers,
      List.map_eq_nil_iff.mp ofOthers, List.append_nil]
    exact ⟨kind, ofArguments.trans written, rfl⟩

end KeepsOperands

end Java

namespace Program

open Java (Located Sketch)

/-- Every new node stands for a syntax node, and every call among them has the operands that are
written. -/
theorem lowered_calls_keep_operands (p : Program) (path : String) (origin : UnitOrigin)
    (contentHash text : String) (root : Java.Syntax) :
    let q := Java.lowerSource p path origin contentHash text root
    ∃ syntaxOf : NodeId → Located, ∀ x, p.size < x.index → q.has x →
      Located.Within { node := root } (syntaxOf x) ∧
        ∃ node, q.get? x = some node ∧ node.span = (syntaxOf x).extent.span ∧
          Java.KeepsOperands syntaxOf (syntaxOf x) node := by
  intro q
  let source := text.toList
  let start := p.addUnit (Java.fileUnit path origin contentHash text root)
  let sketches := Java.fileSketches source root
  have planted : q = Sketch.plantAll p.nextId start sketches :=
    Java.lowerSource_eq p path origin contentHash text root
  -- the listing of the sketches tells what a node stands for
  let syntaxOf (x : NodeId) : Located :=
    ((Sketch.listings sketches)[x.index - start.size]?.map Sketch.origin).getD { node := root }
  have shown : ∀ {x : NodeId} {s : Sketch}, Sketch.Stands sketches start.size s x.index →
      syntaxOf x = s.origin := by
    intro x s stands
    simp only [syntaxOf, stands.getElem?_listings.2, Option.map_some, Option.getD_some]
  refine ⟨syntaxOf, fun x late present => ?_⟩
  have begun : start.size ≤ x.index := by rwa [size_addUnit]
  rw [planted, has_iff, Sketch.size_plantAll] at present
  obtain ⟨s, stands⟩ := Sketch.exists_stands begun sketches present
  obtain ⟨parent, read⟩ := stands.get? (Java.has_unit p _) Java.fresh_fileSketches
  obtain ⟨j, within, proper, k, entered, rfl⟩ :=
    Java.exists_of_mem_fileSketches (List.mem_of_getElem? stands.getElem?_listings.2)
  rw [shown stands, planted]
  refine ⟨within, _, read, Sketch.span_tieAll _ _ _, ?_⟩
  by_cases call : k.isCall
  · refine .of_plansCall (Java.Job.plansCall_of_plan proper entered call) _ parent _ ?_
    rw [← List.forall₂_eq_eq_eq, List.forall₂_map_left_iff, List.forall₂_map_right_iff]
    exact stands.parts.imp fun _ _ => shown
  · apply Java.KeepsOperands.of_not_isCall
    rw [NodeKind.isCall, Sketch.entry, Sketch.callKind?_tieAll]
    exact call

/-- In the record the call has its receiver and its first argument without their parentheses, and
the object behind the comment has its argument and its field. -/
theorem lowered_calls_keep_operands_wrapped :
    ∃ syntaxOf : NodeId → Located,
      (syntaxOf ⟨5⟩).kind = "method_invocation" ∧
      [⟨7⟩, ⟨9⟩].map syntaxOf = (syntaxOf ⟨5⟩).arguments.map Located.unwrapped ∧
      ((syntaxOf ⟨5⟩).child? "object").map Located.unwrapped = some (syntaxOf ⟨6⟩) ∧
      (syntaxOf ⟨6⟩).extent.span = ⟨1, 1, 25, 26⟩ ∧ (syntaxOf ⟨7⟩).extent.span = ⟨1, 1, 32, 36⟩ ∧
      [⟨10⟩].map syntaxOf = (syntaxOf ⟨9⟩).arguments.map Located.unwrapped ∧
      [⟨11⟩].map syntaxOf = (syntaxOf ⟨9⟩).classBodies.flatMap fun body =>
        body.namedChildren.flatMap Located.heads := by
  obtain ⟨syntaxOf, all⟩ := lowered_calls_keep_operands (empty.addUnit { path := "B.java" })
    "R.java" .source "" Source.wrapped Source.wrappedTree
  rw [lowerSource_wrapped] at all
  obtain ⟨-, call, read, -, keeps⟩ := all ⟨5⟩ (by decide) rfl
  obtain ⟨-, object, read', -, keeps'⟩ := all ⟨9⟩ (by decide) rfl
  injection read with read
  injection read' with read'
  subst read read'
  obtain ⟨kind, arguments, -, receiver⟩ := keeps
  obtain ⟨-, arguments', members, children, inBody⟩ := keeps'
  cases children
  obtain ⟨-, e, read, place, -⟩ := all ⟨6⟩ (by decide) rfl
  obtain ⟨-, g, read', place', -⟩ := all ⟨7⟩ (by decide) rfl
  injection read with read
  injection read' with read'
  subst read read'
  exact ⟨syntaxOf, kind, arguments, receiver, place.symm, place'.symm, arguments', inBody⟩

end Program

end JavaCallGraph
