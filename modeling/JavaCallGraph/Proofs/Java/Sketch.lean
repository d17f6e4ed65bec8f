import JavaCallGraph.Java.Source
import Mathlib.Data.List.Basic

/-!
What lowering makes of a syntax tree, as trees.

The work stack is there to do without recursion; what it works off is a recursion all the same. A
job is a task that does not say where its node goes. Its plan tells which node it enters, if any,
and which jobs come below that node or, where none is entered, in the place of the job. Followed to
the end, a job leaves sketches: the trees of nodes that it appends. To plant a sketch is to append
its nodes, every node before those below it.
-/

namespace JavaCallGraph.Java

/-! ### Nodes in nodes -/

/-- A node and all that stands in it. -/
inductive Located.Within (n : Located) : Located → Prop where
  | refl : Within n n
  | child {m : Located} {c : Syntax} : Within n m → c ∈ m.node.children → Within n (m.below c)

/-- A node has another one in it. -/
def Located.Contains (n m : Located) : Prop := ∃ c ∈ n.node.children, (n.below c).Within m

namespace Located

variable {n m k : Located}

theorem Within.trans (outer : n.Within m) (inner : m.Within k) : n.Within k := by
  induction inner with
  | refl => exact outer
  | child _ among ih => exact ih.child among

theorem Within.sizeOf_le (within : n.Within m) : sizeOf m.node ≤ sizeOf n.node := by
  induction within with
  | refl => exact Nat.le_refl _
  | child _ among ih => exact Nat.le_trans (Nat.le_of_lt (Syntax.sizeOf_lt_of_mem among)) ih

theorem Contains.sizeOf_lt (contains : n.Contains m) : sizeOf m.node < sizeOf n.node := by
  obtain ⟨c, among, within⟩ := contains
  exact Nat.lt_of_le_of_lt within.sizeOf_le (Syntax.sizeOf_lt_of_mem among)

theorem Contains.within (contains : n.Contains m) : n.Within m := by
  obtain ⟨c, among, within⟩ := contains
  exact (Within.refl.child among).trans within

theorem Contains.trans (outer : n.Contains m) (inner : m.Within k) : n.Contains k := by
  obtain ⟨c, among, within⟩ := outer
  exact ⟨c, among, within.trans inner⟩

theorem contains_of_mem_namedChildren (member : m ∈ n.namedChildren) : n.Contains m := by
  obtain ⟨c, listed, rfl⟩ := List.mem_map.mp member
  exact ⟨c, (List.mem_filter.mp listed).1, .refl⟩

theorem contains_of_child? {field : String} (found : n.child? field = some m) : n.Contains m := by
  obtain ⟨c, first, rfl⟩ := Option.map_eq_some_iff.mp found
  exact ⟨c, List.mem_of_find?_eq_some first, .refl⟩

theorem contains_of_mem_childrenIn {field : String} (member : m ∈ n.childrenIn field) :
    n.Contains m := by
  obtain ⟨c, listed, rfl⟩ := List.mem_map.mp member
  exact ⟨c, (List.mem_filter.mp listed).1, .refl⟩

end Located

/-! ### Kinds -/

theorem mem_of_lookup {β : Type} {key : String} {value : β} {table : List (String × β)}
    (found : table.lookup key = some value) : (key, value) ∈ table := by
  induction table with
  | nil => cases found
  | cons entry rest ih =>
    obtain ⟨k, v⟩ := entry
    rw [List.lookup_cons] at found
    split at found
    · next same =>
      cases found
      rw [eq_of_beq same]
      exact List.mem_cons_self
    · exact List.mem_cons_of_mem _ (ih found)

namespace Located

variable {source : List Char} {n : Located}

/-- What a node with a shape is like. -/
inductive Shaped (source : List Char) (n : Located) : Shape → Prop where
  | qualifiedThis : n.isQualifiedThis → Shaped source n .qualifiedThis
  | fieldAccess : n.kind = "field_access" → Shaped source n .fieldAccess
  | listed {s : Shape} : shapes.lookup n.kind = some s → Shaped source n s
  | literal {typeName : String} : n.literalType? source = some typeName →
    Shaped source n (.literal typeName)
  | other : shapes.lookup n.kind = none → Shaped source n .other

theorem shaped (source : List Char) (n : Located) : n.Shaped source (n.shape source) := by
  unfold shape
  rw [Bool.cond_eq_ite]
  split
  · next access =>
    split
    · next qualified => exact .qualifiedThis qualified
    · exact .fieldAccess access
  · cases found : shapes.lookup n.kind with
    | some s => exact .listed found
    | none =>
      cases literal : n.literalType? source with
      | some typeName => exact .literal literal
      | none => exact .other found

/-- The kind of a node that has a shape of the table. -/
theorem mem_shapes {s : Shape} (is : n.shape source = s) (listed : s ∈ shapes.map (·.2)) :
    (n.kind, s) ∈ shapes := by
  have shaped := n.shaped source
  rw [is] at shaped
  cases shaped with
  | listed found => exact mem_of_lookup found
  | _ => simp [shapes] at listed

theorem shape_of_kind {s : Shape} (listed : shapes.lookup n.kind = some s) :
    n.shape source = s := by
  have other : n.kind ≠ "field_access" := by
    intro same
    rw [same] at listed
    cases listed
  rw [shape, if_neg other, listed]

/-- The kind of a node that is treated in a way of the table. -/
theorem mem_treatments {t : Treatment} (is : n.treatment = t) (other : t ≠ .passed)
    (apart : t ≠ .initializer false) : (n.kind, t) ∈ treatments := by
  unfold treatment at is
  rw [Bool.cond_eq_ite] at is
  split at is
  · split at is
    · exact absurd is.symm apart
    · exact absurd is.symm other
  · cases found : treatments.lookup n.kind with
    | none =>
      rw [found] at is
      exact absurd is.symm other
    | some t' =>
      rw [found] at is
      exact is ▸ mem_of_lookup found

end Located

/-! ### Sketches -/

/-- How a node is tied to the one above it. -/
inductive Role where
  | child
  | argument
  | receiver
  deriving DecidableEq, Repr

def Role.attach (role : Role) (parent : NodeId) : Attach :=
  match role with
  | child => .child parent
  | argument => .argument parent
  | receiver => .receiver parent

def Attach.role : Attach → Role
  | child _ => .child
  | argument _ => .argument
  | receiver _ => .receiver

def Attach.parent : Attach → NodeId
  | child parent | argument parent | receiver parent => parent

@[simp] theorem Attach.attach_role (attach : Attach) : attach.role.attach attach.parent = attach := by
  cases attach <;> rfl

/-- A node to be appended with all that goes below it. -/
inductive Sketch where
  | node (role : Role) (kind : NodeKind) (origin : Located) (parts : List Sketch)

namespace Sketch

mutual

/-- Append a sketch below a node. -/
def plant (parent : NodeId) (p : Program) : Sketch → Program
  | .node role kind origin parts =>
    plantAll p.nextId ((role.attach parent).append kind origin.extent.span p) parts

/-- Append sketches below a node, one behind the other. -/
def plantAll (parent : NodeId) (p : Program) : List Sketch → Program
  | [] => p
  | o :: rest => plantAll parent (plant parent p o) rest

end

theorem plantAll_append (parent : NodeId) (p : Program) (first later : List Sketch) :
    plantAll parent p (first ++ later) = plantAll parent (plantAll parent p first) later := by
  induction first generalizing p with
  | nil => rw [List.nil_append, plantAll]
  | cons o rest ih => rw [List.cons_append, plantAll, plantAll, ih]

end Sketch

/-! ### Jobs -/

inductive Job where
  /-- Keep declarations, statements and calls. The flag says whether the node above is an
  interface. -/
  | lower (node : Located) (inInterface : Bool)
  /-- Keep the node as an expression, whatever its kind. -/
  | expression (node : Located) (role : Role)
  /-- The call in a constructor invocation. -/
  | invocation (node : Located)
  /-- The field of a record's component. -/
  | component (node : Located) (decl : FieldDecl)

/-- What a job does first: the node it enters, if any, and the jobs that are left. -/
structure Plan where
  kind : Option NodeKind
  jobs : List Job

namespace Located

variable (source : List Char) (n : Located)

/-- The jobs for all that stands in a node. -/
def childJobs (inInterface : Bool) : List Job := n.namedChildren.map (.lower · inInterface)

def bodyJobs (inInterface : Bool) : List Job :=
  match n.child? "body" with
  | some body => body.childJobs inInterface
  | none => []

def argumentJobs : List Job :=
  match n.child? "arguments" with
  | some list => list.namedChildren.map (.expression · .argument)
  | none => []

/-- The jobs for the values of declared names. -/
def initializerJobs : List Job :=
  n.declarators.filterMap fun d => (d.child? "value").map (.lower · false)

def receiverJobs : List Job := ((n.receiver? source).map (.expression · .receiver)).toList

def operandJobs (field : String) : List Job := ((n.child? field).map (.expression · .child)).toList

def expressionPlan (role : Role) : Plan :=
  match n.shape source with
  | .parentheses =>
    match n.namedChildren.head? with
    | some inner => ⟨none, [.expression inner role]⟩
    | none => ⟨some (.expression .other), []⟩
  | .methodInvocation =>
    ⟨some (.methodCall (n.methodCall source)), n.receiverJobs source ++ n.argumentJobs⟩
  | .objectCreation =>
    ⟨some (.objectCreation (n.objectCreation source)),
      n.argumentJobs ++ n.classBodies.flatMap (·.childJobs false)⟩
  | .name => ⟨some (.expression (.name (n.text source))), []⟩
  | .this => ⟨some (.expression .this), []⟩
  | .qualifiedThis => ⟨some (.expression (.qualifiedThis (n.fieldText source "object"))), []⟩
  | .fieldAccess =>
    ⟨some (.expression (.fieldAccess (n.fieldText source "field"))), n.operandJobs "object"⟩
  | .cast => ⟨some (.expression (.cast (n.fieldText source "type"))), n.operandJobs "value"⟩
  | .literal typeName => ⟨some (.expression (.literal typeName)), []⟩
  | .other => ⟨some (.expression .other), n.childJobs false⟩

def plan (inInterface : Bool) : Plan :=
  match n.treatment with
  | .skipped => ⟨none, []⟩
  | .type =>
    ⟨some (.type (n.typeDecl source)),
      (n.components source).map (.component n) ++ n.bodyJobs (n.typeKind == .interfaceType)⟩
  | .callable => ⟨some (.callable (n.callableDecl source)), n.bodyJobs false⟩
  | .field => ⟨some (.field (n.fieldDecl source inInterface)), n.initializerJobs⟩
  | .enumConstant =>
    match n.child? "arguments" with
    | some list => ⟨none, list.childJobs inInterface⟩
    | none => ⟨none, []⟩
  | .initializer isStatic => ⟨some (.initializer isStatic), n.childJobs false⟩
  | .localVariable => ⟨some (.statement (n.localVariable source)), n.initializerJobs⟩
  | .constructorInvocation => ⟨some (.statement (.other n.kind)), [.invocation n]⟩
  | .call => n.expressionPlan source .child
  | .statement => ⟨some (.statement (.other n.kind)), n.childJobs false⟩
  | .passed => ⟨none, n.childJobs inInterface⟩

end Located

namespace Job

variable (source : List Char)

def node : Job → Located
  | lower node _ | expression node _ | invocation node | component node _ => node

/-- How the node of a job is tied to the one above it. -/
def role : Job → Role
  | expression _ role => role
  | lower _ _ | invocation _ | component _ _ => .child

def plan : Job → Plan
  | lower n inInterface => n.plan source inInterface
  | expression n role => n.expressionPlan source role
  | invocation n => ⟨some (.constructorInvocation n.constructorInvocation), n.argumentJobs⟩
  | component _ decl => ⟨some (.field decl), []⟩

/-! ### The jobs of a plan are smaller -/

/-- A constructor invocation is done in two steps at one node. -/
noncomputable def rank : Job → Nat
  | lower n _ => 2 * sizeOf n.node + 1
  | expression n _ => 2 * sizeOf n.node + 1
  | invocation n => 2 * sizeOf n.node
  | component _ _ => 0

/-- A job for what stands in a node. -/
inductive Inside (n : Located) : Job → Prop where
  | lower {m : Located} {inInterface : Bool} : n.Contains m → Inside n (.lower m inInterface)
  | expression {m : Located} {role : Role} : n.Contains m → Inside n (.expression m role)

theorem Inside.contains {n : Located} {j : Job} (inside : j.Inside n) : n.Contains j.node := by
  cases inside with
  | lower contains => exact contains
  | expression contains => exact contains

theorem Inside.mono {n m : Located} {j : Job} (inside : j.Inside m) (contains : n.Contains m) :
    j.Inside n := by
  cases inside with
  | lower below => exact .lower (contains.trans below.within)
  | expression below => exact .expression (contains.trans below.within)

theorem Inside.rank_lt {n : Located} {j : Job} (inside : j.Inside n) :
    j.rank < 2 * sizeOf n.node := by
  cases inside with
  | lower contains =>
    have small := contains.sizeOf_lt
    rw [rank]
    omega
  | expression contains =>
    have small := contains.sizeOf_lt
    rw [rank]
    omega

end Job

namespace Located

variable {source : List Char} {n : Located} {inInterface : Bool} {role : Role} {j : Job}

theorem inside_of_mem_childJobs (member : j ∈ n.childJobs inInterface) : j.Inside n := by
  obtain ⟨c, listed, rfl⟩ := List.mem_map.mp member
  exact .lower (contains_of_mem_namedChildren listed)

theorem inside_of_mem_bodyJobs (member : j ∈ n.bodyJobs inInterface) : j.Inside n := by
  unfold bodyJobs at member
  split at member
  · next found => exact (inside_of_mem_childJobs member).mono (contains_of_child? found)
  · cases member

theorem inside_of_mem_argumentJobs (member : j ∈ n.argumentJobs) : j.Inside n := by
  unfold argumentJobs at member
  split at member
  · next found =>
    obtain ⟨a, listed, rfl⟩ := List.mem_map.mp member
    exact .expression ((contains_of_child? found).trans
      (contains_of_mem_namedChildren listed).within)
  · cases member

theorem inside_of_mem_initializerJobs (member : j ∈ n.initializerJobs) : j.Inside n := by
  obtain ⟨d, listed, some⟩ := List.mem_filterMap.mp member
  obtain ⟨value, found, rfl⟩ := Option.map_eq_some_iff.mp some
  exact .lower ((contains_of_mem_childrenIn listed).trans (contains_of_child? found).within)

theorem inside_of_mem_operandJobs {field : String} (member : j ∈ n.operandJobs field) :
    j.Inside n := by
  obtain ⟨operand, found, rfl⟩ := Option.map_eq_some_iff.mp (Option.mem_toList.mp member)
  exact .expression (contains_of_child? found)

theorem inside_of_mem_receiverJobs (member : j ∈ n.receiverJobs source) : j.Inside n := by
  obtain ⟨receiver, found, rfl⟩ := Option.map_eq_some_iff.mp (Option.mem_toList.mp member)
  exact .expression (contains_of_child? (child?_of_receiver? found))

theorem inside_of_mem_expressionPlan (member : j ∈ (n.expressionPlan source role).jobs) :
    j.Inside n := by
  unfold expressionPlan at member
  generalize n.shape source = shape at member
  cases shape with
  | parentheses =>
    dsimp only at member
    split at member
    · next first =>
      rw [List.mem_singleton.mp member]
      exact .expression (contains_of_mem_namedChildren (List.mem_of_head? first))
    · cases member
  | methodInvocation =>
    rcases List.mem_append.mp member with receiver | argument
    · exact inside_of_mem_receiverJobs receiver
    · exact inside_of_mem_argumentJobs argument
  | objectCreation =>
    rcases List.mem_append.mp member with argument | inBody
    · exact inside_of_mem_argumentJobs argument
    · obtain ⟨body, listed, inside⟩ := List.mem_flatMap.mp inBody
      have below := contains_of_mem_namedChildren (List.mem_filter.mp listed).1
      exact (inside_of_mem_childJobs inside).mono below
  | fieldAccess => exact inside_of_mem_operandJobs member
  | cast => exact inside_of_mem_operandJobs member
  | other => exact inside_of_mem_childJobs member
  | name | this | qualifiedThis | literal => cases member

/-- The jobs of a plan are for what stands in the node, except for the fields of a record's
components and the call in a constructor invocation. -/
theorem mem_plan_cases (member : j ∈ (n.plan source inInterface).jobs) :
    j.Inside n ∨ (∃ decl, j = .component n decl) ∨
      j = .invocation n ∧ n.treatment = .constructorInvocation := by
  unfold plan at member
  cases treatment : n.treatment with
  | skipped =>
    rw [treatment] at member
    cases member
  | type =>
    rw [treatment] at member
    rcases List.mem_append.mp member with component | inBody
    · obtain ⟨decl, -, rfl⟩ := List.mem_map.mp component
      exact .inr (.inl ⟨decl, rfl⟩)
    · exact .inl (inside_of_mem_bodyJobs inBody)
  | callable =>
    rw [treatment] at member
    exact .inl (inside_of_mem_bodyJobs member)
  | field | localVariable =>
    rw [treatment] at member
    exact .inl (inside_of_mem_initializerJobs member)
  | enumConstant =>
    simp only [treatment] at member
    split at member
    · next found => exact .inl ((inside_of_mem_childJobs member).mono (contains_of_child? found))
    · cases member
  | constructorInvocation =>
    rw [treatment] at member
    exact .inr (.inr ⟨List.mem_singleton.mp member, rfl⟩)
  | call =>
    rw [treatment] at member
    exact .inl (inside_of_mem_expressionPlan member)
  | initializer | statement | passed =>
    rw [treatment] at member
    exact .inl (inside_of_mem_childJobs member)

end Located

namespace Job

variable {source : List Char}

theorem rank_lt_of_mem_plan {j x : Job} (member : x ∈ (j.plan source).jobs) : x.rank < j.rank := by
  cases j with
  | lower n inInterface =>
    rcases Located.mem_plan_cases member with inside | ⟨decl, rfl⟩ | ⟨rfl, -⟩
    · exact Nat.lt_succ_of_lt inside.rank_lt
    · exact Nat.succ_pos _
    · exact Nat.lt_succ_self _
  | expression n role =>
    exact Nat.lt_succ_of_lt (Located.inside_of_mem_expressionPlan member).rank_lt
  | invocation n => exact (Located.inside_of_mem_argumentJobs member).rank_lt
  | component n decl => cases member

theorem within_of_mem_plan {j x : Job} (member : x ∈ (j.plan source).jobs) :
    j.node.Within x.node := by
  cases j with
  | lower n inInterface =>
    rcases Located.mem_plan_cases member with inside | ⟨decl, rfl⟩ | ⟨rfl, -⟩
    · exact inside.contains.within
    · exact .refl
    · exact .refl
  | expression n role => exact (Located.inside_of_mem_expressionPlan member).contains.within
  | invocation n => exact (Located.inside_of_mem_argumentJobs member).contains.within
  | component n decl => cases member

/-- Induction along plans. -/
theorem induction (source : List Char) {motive : Job → Prop}
    (step : ∀ j, (∀ x ∈ (j.plan source).jobs, motive x) → motive j) (j : Job) : motive j :=
  step j fun x _ => induction source step x
termination_by j.rank
decreasing_by exact rank_lt_of_mem_plan ‹_›

/-! ### The sketches that a job leaves -/

def sketches (source : List Char) (j : Job) : List Sketch :=
  let parts := (j.plan source).jobs.attach.flatMap fun x => x.1.sketches source
  match (j.plan source).kind with
  | some kind => [.node j.role kind j.node parts]
  | none => parts
termination_by j.rank
decreasing_by exact rank_lt_of_mem_plan x.2

theorem sketches_eq (j : Job) :
    j.sketches source =
      match (j.plan source).kind with
      | some kind =>
        [.node j.role kind j.node ((j.plan source).jobs.flatMap (sketches source))]
      | none => (j.plan source).jobs.flatMap (sketches source) := by
  rw [sketches]
  simp only [List.flatMap_subtype, List.unattach_attach]

end Job

/-- The sketches of what stands in a file. -/
def fileSketches (source : List Char) (root : Syntax) : List Sketch :=
  (({ node := root } : Located).childJobs false).flatMap (Job.sketches source)

end JavaCallGraph.Java
