import JavaCallGraph.Proofs.Java.Planting

/-!
The work stack leaves what the recursion leaves.

Every task on the stack stands for the sketches of its job, to be planted below the node that the
task names. What the program will be once all tasks are done is therefore known at any time:
`Lowerer.finish` plants the sketches of the tasks one behind the other. No round of the loop changes
it, so the loop ends with the program that was foreseen at its start.

A field reads back from the program whether the node above it is an interface. That node was
entered before, and planting leaves it as it is.
-/

namespace JavaCallGraph.Java

theorem isInterface_of_copied {p q : Program} (copied : p.Copied q 0) {id : NodeId}
    (present : p.has id) : q.isInterface id = p.isInterface id := by
  have same : q.typeDecl? id = p.typeDecl? id :=
    copied.kept_kind present (by rintro (_ | _ | _) <;> rfl)
  rw [Program.isInterface, same, Program.isInterface]

theorem Attach.isInterface_new (attach : Attach) (k : NodeKind) (s : Span) (p : Program) :
    (attach.append k s p).isInterface p.nextId = k.type?.any (·.kind == .interfaceType) := by
  rw [Program.isInterface, Program.typeDecl?,
    attach.bind_kind?_new k s p (by rintro (_ | _ | _) <;> rfl)]

/-! ### What a task stands for -/

namespace Job

/-- Plant all that jobs leave, one behind the other. -/
def plantAll (source : List Char) (owner : NodeId) (p : Program) (jobs : List Job) : Program :=
  Sketch.plantAll owner p (jobs.flatMap (sketches source))

variable {source : List Char} {owner : NodeId} {p : Program}

theorem plantAll_append (first later : List Job) :
    plantAll source owner p (first ++ later) =
      plantAll source owner (plantAll source owner p first) later := by
  rw [plantAll, List.flatMap_append, Sketch.plantAll_append, plantAll, plantAll]

/-- The sketches of a job are planted by entering its node and planting those of its plan. -/
theorem plantAll_singleton (j : Job) :
    plantAll source owner p [j] =
      match (j.plan source).kind with
      | some k => plantAll source p.nextId ((j.role.attach owner).append k j.node.extent.span p)
          (j.plan source).jobs
      | none => plantAll source owner p (j.plan source).jobs := by
  rw [plantAll, List.flatMap_singleton, sketches_eq]
  cases (j.plan source).kind with
  | none => rfl
  | some k => simp only [Sketch.plantAll, Sketch.plant, plantAll]

theorem copied_plantAll (source : List Char) (present : p.has owner) (jobs : List Job) :
    p.Copied (plantAll source owner p jobs) 0 :=
  Sketch.copied_plantAll present fresh_flatMap

theorem grown_plantAll (grown : p.Grown) (present : p.has owner) (jobs : List Job) :
    (plantAll source owner p jobs).Grown :=
  Sketch.grown_plantAll grown present fresh_flatMap

theorem has_plantAll (present : p.has owner) (jobs : List Job) {x : NodeId} (old : p.has x) :
    (plantAll source owner p jobs).has x :=
  (copied_plantAll source present jobs).kept_has old

end Job

namespace Task

def parent : Task → NodeId
  | lower _ parent => parent
  | expression _ attach => attach.parent

/-- The job of a task in a program that holds its parent. -/
def job (p : Program) : Task → Job
  | lower node parent => .lower node (p.isInterface parent)
  | expression node attach => .expression node attach.role

/-- Plant all that a task stands for. -/
def plant (source : List Char) (p : Program) (t : Task) : Program :=
  Job.plantAll source t.parent p [t.job p]

variable {source : List Char} {p : Program}

theorem job_of_copied {q : Program} (copied : p.Copied q 0) {t : Task} (present : p.has t.parent) :
    t.job q = t.job p := by
  cases t with
  | lower node parent => exact congrArg (Job.lower node) (isInterface_of_copied copied present)
  | expression node attach => rfl

/-- Tasks below one node plant their sketches one behind the other. -/
theorem foldl_plant {parent : NodeId} {tasks : List Task} (present : p.has parent)
    (below : ∀ t ∈ tasks, t.parent = parent) :
    tasks.foldl (plant source) p = Job.plantAll source parent p (tasks.map (job p)) := by
  induction tasks generalizing p with
  | nil => rw [List.foldl_nil, List.map_nil, Job.plantAll, List.flatMap_nil, Sketch.plantAll]
  | cons t rest ih =>
    have later := fun x (member : x ∈ rest) => below x (List.mem_cons_of_mem t member)
    have planted : t.plant source p = Job.plantAll source parent p [t.job p] := by
      rw [plant, below t List.mem_cons_self]
    have jobs : rest.map (job (t.plant source p)) = rest.map (job p) := by
      apply List.map_congr_left
      intro x member
      rw [planted]
      exact job_of_copied (Job.copied_plantAll source present _) (later x member ▸ present)
    have still : (t.plant source p).has parent := planted ▸ Job.has_plantAll present _ present
    rw [List.foldl_cons, ih still later, jobs, planted, ← Job.plantAll_append, List.map_cons,
      List.singleton_append]

end Task

namespace Lowerer

/-- The program once all tasks are done. -/
def finish (l : Lowerer) : Program := l.work.foldl (Task.plant l.source) l.program

/-- Every task is for a node that is there. -/
def Grounded (l : Lowerer) : Prop := ∀ t ∈ l.work, l.program.has t.parent

/-! ### Scheduling -/

def schedule (l : Lowerer) (tasks : List Task) : Lowerer := { l with work := tasks ++ l.work }

theorem schedule_schedule (l : Lowerer) (later first : List Task) :
    (l.schedule later).schedule first = l.schedule (first ++ later) := by
  simp [schedule]

/-- The items are taken from the last to the first, so the tasks of the first end on top. -/
theorem foldl_reverse {α : Type} (tasks : α → List Task) {f : Lowerer → α → Lowerer}
    (each : ∀ l x, f l x = l.schedule (tasks x)) (items : List α) (l : Lowerer) :
    items.reverse.foldl f l = l.schedule (items.flatMap tasks) := by
  induction items with
  | nil => rfl
  | cons x rest ih =>
    rw [List.reverse_cons, List.foldl_append, ih, List.foldl_cons, List.foldl_nil, each,
      schedule_schedule, List.flatMap_cons]

end Lowerer

/-! ### The tasks for what stands in a node -/

namespace Located

variable (n : Located) (owner : NodeId)

def childTasks : List Task := n.namedChildren.map (.lower · owner)

def bodyTasks : List Task :=
  match n.child? "body" with
  | some body => body.childTasks owner
  | none => []

def argumentTasks : List Task :=
  match n.child? "arguments" with
  | some list => list.namedChildren.map (.expression · (.argument owner))
  | none => []

def initializerTasks : List Task :=
  n.declarators.filterMap fun d => (d.child? "value").map (.lower · owner)

end Located

namespace Lowerer

variable (l : Lowerer) (n : Located) (owner : NodeId)

theorem scheduleChildren_eq : l.scheduleChildren n owner = l.schedule (n.childTasks owner) := by
  rw [Located.childTasks, List.map_eq_flatMap]
  exact foldl_reverse (fun c => [.lower c owner]) (fun _ _ => rfl) _ l

theorem scheduleArguments_eq : l.scheduleArguments n owner = l.schedule (n.argumentTasks owner) := by
  unfold scheduleArguments Located.argumentTasks
  cases n.child? "arguments" with
  | none => rfl
  | some list =>
    dsimp only
    rw [List.map_eq_flatMap]
    exact foldl_reverse (fun a => [.expression a (.argument owner)]) (fun _ _ => rfl) _ l

theorem scheduleBody_eq : l.scheduleBody n owner = l.schedule (n.bodyTasks owner) := by
  unfold scheduleBody Located.bodyTasks
  cases n.child? "body" with
  | none => rfl
  | some body => exact scheduleChildren_eq l body owner

theorem scheduleInitializers_eq :
    l.scheduleInitializers n.declarators owner = l.schedule (n.initializerTasks owner) := by
  rw [Located.initializerTasks, List.filterMap_eq_flatMap_toList]
  refine foldl_reverse _ (fun l d => ?_) _ l
  cases d.child? "value" <;> rfl

end Lowerer

/-! ### The jobs of scheduled tasks -/

namespace Located

variable {n : Located} {owner : NodeId} {p : Program}

theorem parent_of_mem_childTasks {t : Task} (member : t ∈ n.childTasks owner) :
    t.parent = owner := by
  obtain ⟨c, -, rfl⟩ := List.mem_map.mp member
  rfl

theorem job_childTasks : (n.childTasks owner).map (Task.job p) = n.childJobs (p.isInterface owner) := by
  rw [childTasks, List.map_map, childJobs]
  rfl

theorem parent_of_mem_bodyTasks {t : Task} (member : t ∈ n.bodyTasks owner) : t.parent = owner := by
  unfold bodyTasks at member
  split at member
  · exact parent_of_mem_childTasks member
  · cases member

theorem job_bodyTasks : (n.bodyTasks owner).map (Task.job p) = n.bodyJobs (p.isInterface owner) := by
  unfold bodyTasks bodyJobs
  cases n.child? "body" with
  | none => rfl
  | some body => exact job_childTasks

theorem parent_of_mem_argumentTasks {t : Task} (member : t ∈ n.argumentTasks owner) :
    t.parent = owner := by
  unfold argumentTasks at member
  split at member
  · obtain ⟨a, -, rfl⟩ := List.mem_map.mp member
    rfl
  · cases member

theorem job_argumentTasks : (n.argumentTasks owner).map (Task.job p) = n.argumentJobs := by
  unfold argumentTasks argumentJobs
  cases n.child? "arguments" with
  | none => rfl
  | some list => exact List.map_map

theorem parent_of_mem_initializerTasks {t : Task} (member : t ∈ n.initializerTasks owner) :
    t.parent = owner := by
  obtain ⟨d, -, some⟩ := List.mem_filterMap.mp member
  obtain ⟨value, -, rfl⟩ := Option.map_eq_some_iff.mp some
  rfl

theorem job_initializerTasks (plain : p.isInterface owner = false) :
    (n.initializerTasks owner).map (Task.job p) = n.initializerJobs := by
  rw [initializerTasks, List.map_filterMap, initializerJobs]
  simp only [Option.map_map, Function.comp_def, Task.job, plain]

end Located

/-! ### One round of the loop -/

namespace Lowerer

/-- From the program `p` on, the jobs below `owner` are done or stand on the stack. -/
def Follows (l : Lowerer) (owner : NodeId) (p : Program) (jobs : List Job) (l' : Lowerer) : Prop :=
  ∃ q tasks, l' = { l with program := q }.schedule tasks ∧ p.Copied q 0 ∧
    (∀ t ∈ tasks, q.has t.parent) ∧
    tasks.foldl (Task.plant l.source) q = Job.plantAll l.source owner p jobs

/-- The plan for a node is done: its node is entered, and its jobs are done or stand on the stack. -/
inductive Carries (l : Lowerer) (attach : Attach) (n : Located) (l' : Lowerer) : Plan → Prop where
  | passed {jobs : List Job} : Follows l attach.parent l.program jobs l' →
    Carries l attach n l' ⟨none, jobs⟩
  | entered {k : NodeKind} {jobs : List Job} :
    Follows l l.program.nextId (attach.append k n.extent.span l.program) jobs l' →
    Carries l attach n l' ⟨some k, jobs⟩

section

variable {l l' : Lowerer} {owner : NodeId} {p : Program} {jobs : List Job}

theorem Follows.of_schedule (tasks : List Task) (present : p.has owner)
    (below : ∀ t ∈ tasks, t.parent = owner) (same : tasks.map (Task.job p) = jobs) :
    Follows l owner p jobs ({ l with program := p }.schedule tasks) := by
  refine ⟨p, tasks, rfl, Program.copied_of_outline? fun _ => rfl, ?_, ?_⟩
  · intro t member
    rw [below t member]
    exact present
  · rw [Task.foldl_plant present below, same]

theorem Follows.nothing (present : p.has owner) : Follows l owner p [] { l with program := p } :=
  .of_schedule [] present (fun _ member => nomatch member) rfl

/-- Jobs that are done at once come before those on the stack. -/
theorem Follows.after_plant {first : List Job} (present : p.has owner)
    (later : Follows l owner (Job.plantAll l.source owner p first) jobs l') :
    Follows l owner p (first ++ jobs) l' := by
  obtain ⟨q, tasks, same, copied, grounded, planted⟩ := later
  refine ⟨q, tasks, same, (Job.copied_plantAll l.source present first).trans copied, grounded, ?_⟩
  rw [planted, Job.plantAll_append]

/-- A job whose node is entered at once leaves those of its plan. -/
theorem Follows.after_enter {j : Job} {k : NodeKind} (entered : (j.plan l.source).kind = some k)
    (later : Follows l p.nextId ((j.role.attach owner).append k j.node.extent.span p)
      (j.plan l.source).jobs l') :
    Follows l owner p [j] l' := by
  obtain ⟨q, tasks, same, copied, grounded, planted⟩ := later
  refine ⟨q, tasks, same, ((j.role.attach owner).copied_append k _ p).trans copied, grounded, ?_⟩
  rw [planted, Job.plantAll_singleton, entered]

theorem foldl_enter (n : Located) (decls : List FieldDecl) (l : Lowerer) :
    decls.foldl (fun l c => l.enter (.child owner) (.field c) n) l =
      { l with program := Job.plantAll l.source owner l.program (decls.map (.component n)) } := by
  induction decls generalizing l with
  | nil => simp only [List.foldl_nil, List.map_nil, Job.plantAll, List.flatMap_nil, Sketch.plantAll]
  | cons c rest ih =>
    rw [List.foldl_cons, ih, List.map_cons, ← List.singleton_append, Job.plantAll_append,
      Job.plantAll_singleton]
    simp only [Job.plan, Job.plantAll, List.flatMap_nil, Sketch.plantAll]
    rfl

end

/-! ### Expressions -/

variable (l : Lowerer) (n : Located) (attach : Attach)

/-- A node is entered with its tasks behind it. -/
theorem carries_schedule {k : NodeKind} (tasks : List Task) {jobs : List Job}
    (below : ∀ t ∈ tasks, t.parent = l.program.nextId)
    (same : tasks.map (Task.job (attach.append k n.extent.span l.program)) = jobs) :
    Carries l attach n ((l.enter attach k n).schedule tasks) ⟨some k, jobs⟩ :=
  .entered (.of_schedule tasks (attach.has_new k n.extent.span l.program) below same)

theorem carries_enter (k : NodeKind) : Carries l attach n (l.enter attach k n) ⟨some k, []⟩ :=
  .entered (.nothing (attach.has_new k n.extent.span l.program))

theorem carries_lowerWhole {k : NodeKind} (plain : k.type? = none) :
    Carries l attach n (l.lowerWhole k n attach) ⟨some k, n.childJobs false⟩ := by
  rw [lowerWhole, scheduleChildren_eq]
  apply carries_schedule l n attach _ fun _ => Located.parent_of_mem_childTasks
  rw [Located.job_childTasks, attach.isInterface_new, plain, Option.any_none]

theorem carries_lowerOperation (e : Expression) (operand : String) :
    Carries l attach n (l.lowerOperation e operand n attach)
      ⟨some (.expression e), n.operandJobs operand⟩ := by
  unfold lowerOperation Located.operandJobs
  cases n.child? operand with
  | none => exact carries_enter l n attach _
  | some x =>
    refine carries_schedule l n attach [.expression x (.child l.program.nextId)] ?_ rfl
    exact fun t member => List.mem_singleton.mp member ▸ rfl

theorem carries_lowerMethodInvocation :
    Carries l attach n (l.lowerMethodInvocation n attach)
      ⟨some (.methodCall (n.methodCall l.source)), n.receiverJobs l.source ++ n.argumentJobs⟩ := by
  unfold lowerMethodInvocation
  dsimp only
  rw [scheduleArguments_eq]
  change Carries l attach n (match n.receiver? l.source with | some _ => _ | none => _) _
  unfold Located.receiverJobs
  cases n.receiver? l.source with
  | none =>
    exact carries_schedule l n attach _ (fun _ => Located.parent_of_mem_argumentTasks)
      Located.job_argumentTasks
  | some r =>
    refine carries_schedule l n attach
      (.expression r (.receiver l.program.nextId) :: n.argumentTasks l.program.nextId) ?_ ?_
    · intro t member
      rcases List.mem_cons.mp member with rfl | argument
      · rfl
      · exact Located.parent_of_mem_argumentTasks argument
    · rw [List.map_cons, Located.job_argumentTasks]
      rfl

theorem carries_lowerObjectCreation :
    Carries l attach n (l.lowerObjectCreation n attach)
      ⟨some (.objectCreation (n.objectCreation l.source)),
        n.argumentJobs ++ n.classBodies.flatMap (·.childJobs false)⟩ := by
  have bodies := foldl_reverse (fun body => body.childTasks l.program.nextId)
    (fun l' body => l'.scheduleChildren_eq body l.program.nextId) n.classBodies
    (l.enter attach (.objectCreation (n.objectCreation l.source)) n)
  unfold lowerObjectCreation
  dsimp only
  rw [bodies, scheduleArguments_eq, schedule_schedule]
  apply carries_schedule
  · intro t member
    rcases List.mem_append.mp member with argument | inBody
    · exact Located.parent_of_mem_argumentTasks argument
    · obtain ⟨body, -, inside⟩ := List.mem_flatMap.mp inBody
      exact Located.parent_of_mem_childTasks inside
  · rw [List.map_append, Located.job_argumentTasks, List.map_flatMap]
    simp only [Located.job_childTasks, attach.isInterface_new]
    rfl

theorem carries_lowerExpression (present : l.program.has attach.parent) :
    Carries l attach n (l.lowerExpression n attach) (n.expressionPlan l.source attach.role) := by
  unfold lowerExpression Located.expressionPlan
  cases n.shape l.source with
  | parentheses =>
    dsimp only
    cases n.namedChildren.head? with
    | none => exact carries_enter l n attach _
    | some inner =>
      refine .passed (.of_schedule [.expression inner attach] present ?_ rfl)
      exact fun t member => List.mem_singleton.mp member ▸ rfl
  | methodInvocation => exact carries_lowerMethodInvocation l n attach
  | objectCreation => exact carries_lowerObjectCreation l n attach
  | fieldAccess => exact carries_lowerOperation l n attach _ _
  | cast => exact carries_lowerOperation l n attach _ _
  | other => exact carries_lowerWhole l n attach rfl
  | name | this | qualifiedThis | literal => exact carries_enter l n attach _

/-! ### Declarations and statements -/

variable (parent : NodeId)

theorem carries_lowerType :
    Carries l (.child parent) n (l.lowerType n parent)
      ⟨some (.type (n.typeDecl l.source)),
        (n.components l.source).map (.component n) ++ n.bodyJobs (n.typeKind == .interfaceType)⟩ := by
  have new := (Attach.child parent).has_new (.type (n.typeDecl l.source)) n.extent.span l.program
  have copied :=
    Job.copied_plantAll l.source new ((n.components l.source).map (Job.component n))
  unfold lowerType
  dsimp only
  rw [foldl_enter, scheduleBody_eq]
  refine .entered (.after_plant new (.of_schedule _ (Job.has_plantAll new _ new)
    (fun _ => Located.parent_of_mem_bodyTasks) ?_))
  rw [Located.job_bodyTasks, isInterface_of_copied copied new, Attach.isInterface_new]
  rfl

theorem carries_lowerCallable :
    Carries l (.child parent) n (l.lowerCallable n parent)
      ⟨some (.callable (n.callableDecl l.source)), n.bodyJobs false⟩ := by
  rw [lowerCallable, scheduleBody_eq]
  apply carries_schedule l n _ _ fun _ => Located.parent_of_mem_bodyTasks
  rw [Located.job_bodyTasks, Attach.isInterface_new]
  rfl

/-- A node is entered with the values of the names that it declares. -/
theorem carries_scheduleInitializers {k : NodeKind} (plain : k.type? = none) :
    Carries l attach n
      ((l.enter attach k n).scheduleInitializers n.declarators l.program.nextId)
      ⟨some k, n.initializerJobs⟩ := by
  rw [scheduleInitializers_eq]
  apply carries_schedule l n attach _ fun _ => Located.parent_of_mem_initializerTasks
  apply Located.job_initializerTasks
  rw [attach.isInterface_new, plain, Option.any_none]

theorem carries_lowerConstructorInvocation :
    Carries l (.child parent) n (l.lowerConstructorInvocation n parent)
      ⟨some (.statement (.other n.kind)), [.invocation n]⟩ := by
  unfold lowerConstructorInvocation
  dsimp only
  rw [scheduleArguments_eq]
  refine .entered (.after_enter rfl (.of_schedule _ (Attach.has_new _ _ _ _)
    (fun _ => Located.parent_of_mem_argumentTasks) Located.job_argumentTasks))

theorem carries_lower (present : l.program.has parent) :
    Carries l (.child parent) n (l.lower n parent)
      (n.plan l.source (l.program.isInterface parent)) := by
  have children : ∀ m : Located, Carries l (.child parent) n (l.scheduleChildren m parent)
      ⟨none, m.childJobs (l.program.isInterface parent)⟩ := by
    intro m
    rw [scheduleChildren_eq]
    exact .passed (.of_schedule _ present (fun _ => Located.parent_of_mem_childTasks)
      Located.job_childTasks)
  unfold lower Located.plan
  cases n.treatment with
  | skipped => exact .passed (.nothing present)
  | type => exact carries_lowerType l n parent
  | callable => exact carries_lowerCallable l n parent
  | field => exact carries_scheduleInitializers l n (.child parent) rfl
  | enumConstant =>
    dsimp only
    cases n.child? "arguments" with
    | none => exact .passed (.nothing present)
    | some list => exact children list
  | initializer isStatic => exact carries_lowerWhole l n _ rfl
  | localVariable => exact carries_scheduleInitializers l n (.child parent) rfl
  | constructorInvocation => exact carries_lowerConstructorInvocation l n parent
  | call => exact carries_lowerExpression l n (.child parent) present
  | statement => exact carries_lowerWhole l n _ rfl
  | passed => exact children n

/-! ### The whole loop -/

variable {l n attach}

theorem Carries.follows {l' : Lowerer} {j : Job}
    (carries : Carries l (j.role.attach parent) j.node l' (j.plan l.source)) :
    Follows l parent l.program [j] l' := by
  generalize same : j.plan l.source = plan at carries
  cases carries with
  | passed later =>
    obtain ⟨q, tasks, state, copied, grounded, planted⟩ := later
    rw [Role.parent_attach] at planted
    refine ⟨q, tasks, state, copied, grounded, ?_⟩
    rw [planted, Job.plantAll_singleton, same]
  | entered later => exact .after_enter (by rw [same]) (by rwa [same])

theorem follows_perform {t : Task} (present : l.program.has t.parent) :
    Follows l t.parent l.program [t.job l.program] (l.perform t) := by
  apply Carries.follows
  cases t with
  | lower node parent => exact carries_lower l node parent present
  | expression node attach =>
    change Carries l (attach.role.attach attach.parent) node _ _
    rw [attach.attach_role]
    exact carries_lowerExpression l node attach present

/-- A round of the loop leaves the program that is foreseen. -/
theorem finish_perform {t : Task} (present : l.program.has t.parent) :
    (l.perform t).finish = (l.push t).finish := by
  obtain ⟨q, tasks, state, -, -, planted⟩ := follows_perform present
  rw [state, finish, schedule]
  dsimp only
  rw [List.foldl_append, planted]
  rfl

theorem grounded_perform {t : Task} (grounded : l.Grounded) (present : l.program.has t.parent) :
    (l.perform t).Grounded := by
  obtain ⟨q, tasks, state, copied, scheduled, -⟩ := follows_perform present
  intro x member
  rw [state] at member ⊢
  rcases List.mem_append.mp member with new | old
  · exact scheduled x new
  · exact copied.kept_has (grounded x old)

/-- The loop ends with the program that was foreseen. -/
theorem run_eq_finish {l : Lowerer} (grounded : l.Grounded) : l.run = l.finish := by
  fun_induction run l with
  | case1 l done => rw [finish, done, List.foldl_nil]
  | case2 l t rest work ih =>
    let popped : Lowerer := { l with work := rest }
    have present : popped.program.has t.parent := grounded t (work ▸ List.mem_cons_self)
    have below : popped.Grounded := fun x member =>
      grounded x (work ▸ List.mem_cons_of_mem t member)
    have again : popped.push t = l := by simp only [popped, push, ← work]
    rw [ih (grounded_perform below present), finish_perform present, again]

/-- At most so many rounds of the loop. -/
def runFor : Nat → Lowerer → Lowerer
  | 0, l => l
  | rounds + 1, l =>
    match l.work with
    | [] => l
    | t :: rest => runFor rounds ({ l with work := rest }.perform t)

theorem run_nil {l : Lowerer} (done : l.work = []) : l.run = l.program := by
  rw [run_eq_finish (by simp [Grounded, done]), finish, done, List.foldl_nil]

theorem run_cons {l : Lowerer} {t : Task} {rest : List Task} (work : l.work = t :: rest) :
    l.run = ({ l with work := rest }.perform t).run := by
  rw [run.eq_def]
  split
  · next done => simp [work] at done
  · next work' =>
    cases work.symm.trans work'
    rfl

theorem run_runFor (rounds : Nat) (l : Lowerer) : (l.runFor rounds).run = l.run := by
  induction rounds generalizing l with
  | zero => rfl
  | succ rounds ih =>
    rw [runFor]
    split
    · rfl
    · next work => rw [ih, run_cons work]

/-- Once enough rounds are done the loop has ended. -/
theorem run_eq_of_runFor {l l' : Lowerer} (rounds : Nat) (done : l.runFor rounds = l')
    (empty : l'.work = []) : l.run = l'.program := by
  rw [← run_runFor rounds, done, run_nil empty]

end Lowerer

/-! ### Files -/

/-- The unit that a file becomes. -/
def fileUnit (path : String) (origin : UnitOrigin) (contentHash text : String) (root : Syntax) :
    CompilationUnit :=
  { path, package := Located.package? text.toList { node := root }, origin, contentHash }

theorem has_unit (p : Program) (u : CompilationUnit) : (p.addUnit u).has p.nextId := by
  rw [Program.has_iff, Program.size_addUnit]
  exact Nat.lt_succ_self p.size

section

variable {p : Program} {path : String} {origin : UnitOrigin} {contentHash text : String}
  {root : Syntax}

/-- A file is appended by entering its unit and planting its sketches below. -/
theorem lowerSource_eq (p : Program) (path : String) (origin : UnitOrigin)
    (contentHash text : String) (root : Syntax) :
    lowerSource p path origin contentHash text root =
      Sketch.plantAll p.nextId (p.addUnit (fileUnit path origin contentHash text root))
        (fileSketches text.toList root) := by
  let unit := fileUnit path origin contentHash text root
  have present := has_unit p unit
  have plain : (p.addUnit unit).isInterface p.nextId = false := by
    simp [Program.isInterface, Program.typeDecl?, Program.kind?, Program.get?_addUnit,
      NodeKind.type?]
  rw [lowerSource, Lowerer.scheduleChildren_eq, Lowerer.run_eq_finish]
  · have planted : (Located.childTasks { node := root } p.nextId).foldl (Task.plant text.toList)
        (p.addUnit unit) = _ := Task.foldl_plant present fun t => Located.parent_of_mem_childTasks
    rw [Located.job_childTasks, plain] at planted
    rw [Lowerer.finish, Lowerer.schedule, List.append_nil]
    exact planted
  · intro t member
    rw [Lowerer.schedule, List.append_nil] at member
    rw [Located.parent_of_mem_childTasks member]
    exact present

/-- Once enough rounds are done the file is appended. -/
theorem lowerSource_eq_of_runFor (rounds : Nat) {q : Program}
    (done : (Lowerer.mk text.toList (p.addUnit (fileUnit path origin contentHash text root))
      (Located.childTasks { node := root } p.nextId)).runFor rounds = ⟨text.toList, q, []⟩) :
    lowerSource p path origin contentHash text root = q := by
  rw [lowerSource, Lowerer.scheduleChildren_eq, Lowerer.schedule, List.append_nil]
  exact Lowerer.run_eq_of_runFor rounds done rfl

/-- What holds once the unit is entered, and survives every insertion below it, holds of the program
with the whole file. -/
theorem lowerSource_invariant (Inv : Program → Prop)
    (start : Inv (p.addUnit (fileUnit path origin contentHash text root)))
    (keeps : ∀ {q : Program} (attach : Attach) {k : NodeKind} (extent : Extent), Inv q →
      p.size ≤ attach.parent.index → q.has attach.parent → Bare k →
        Inv (attach.append k extent.span q)) :
    Inv (lowerSource p path origin contentHash text root) := by
  rw [lowerSource_eq]
  refine (Sketch.plantAll_invariant (p.size ≤ ·.index) (fun q => p.size ≤ q.size ∧ Inv q)
    ⟨by simp, start⟩ And.left ?_ (Nat.le_refl p.size) (has_unit p _) fresh_fileSketches).2
  intro q attach k extent inv late present bare
  rw [Attach.size_append]
  exact ⟨Nat.le_succ_of_le inv.1, keeps attach extent inv.2 late present bare⟩

theorem units_lowerSource :
    (lowerSource p path origin contentHash text root).units = p.units ++ [p.nextId] := by
  apply lowerSource_invariant (fun q => q.units = p.units ++ [p.nextId]) rfl
  intro q attach k extent units late present bare
  rw [Attach.units_append, units]

theorem grown_lowerSource (grown : p.Grown) :
    (lowerSource p path origin contentHash text root).Grown := by
  apply lowerSource_invariant Program.Grown (grown.addUnit _)
  intro q attach k extent grown late present bare
  exact attach.grown_append k extent.span grown present

end

end JavaCallGraph.Java
