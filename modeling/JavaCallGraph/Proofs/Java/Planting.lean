import JavaCallGraph.Proofs.Java.Sketch
import JavaCallGraph.Proofs.Program.Copies

/-!
Planting as insertions.

Planting a sketch changes a program by insertions only, each below a node that the planting itself
has entered or below the one it started from, and each of a payload that names no node yet.
`Lockstep` says what two programs must share to stay related under such insertions; planting the
same sketch in both then keeps them related. With one program in both places this is the rule for
invariants.
-/

namespace JavaCallGraph.Java

/-! ### Payloads as they are entered -/

/-- A payload as it is first entered: neither a unit nor one that names nodes. -/
structure Bare (k : NodeKind) : Prop where
  unit? : k.unit? = none
  references : k.references = []

namespace Located

variable {source : List Char} {n : Located} {k : NodeKind}

theorem bare_methodCall (source : List Char) (n : Located) :
    Bare (.methodCall (n.methodCall source)) := by
  refine ⟨rfl, ?_⟩
  unfold methodCall callScope
  simp only [Bool.cond_eq_ite]
  repeat' split
  all_goals rfl

theorem bare_of_expressionPlan {role : Role}
    (entered : (n.expressionPlan source role).kind = some k) : Bare k := by
  unfold expressionPlan at entered
  cases shape : n.shape source with
  | parentheses =>
    simp only [shape] at entered
    split at entered <;> cases entered
    exact ⟨rfl, rfl⟩
  | methodInvocation =>
    simp only [shape] at entered
    cases entered
    exact bare_methodCall source n
  | _ =>
    simp only [shape] at entered
    cases entered
    exact ⟨rfl, rfl⟩

theorem bare_of_plan {inInterface : Bool} (entered : (n.plan source inInterface).kind = some k) :
    Bare k := by
  unfold plan at entered
  cases treatment : n.treatment with
  | call =>
    simp only [treatment] at entered
    exact bare_of_expressionPlan entered
  | enumConstant =>
    simp only [treatment] at entered
    split at entered <;> cases entered
  | _ =>
    simp only [treatment] at entered
    cases entered
    try exact ⟨rfl, rfl⟩

end Located

/-- All payloads are as they are first entered. -/
inductive Sketch.Fresh : Sketch → Prop where
  | node {role : Role} {kind : NodeKind} {origin : Located} {parts : List Sketch} :
    Bare kind → (∀ s ∈ parts, Fresh s) → Fresh (.node role kind origin parts)

namespace Job

variable {source : List Char}

theorem bare_of_plan {j : Job} {k : NodeKind} (entered : (j.plan source).kind = some k) :
    Bare k := by
  cases j with
  | lower n inInterface => exact Located.bare_of_plan entered
  | expression n role => exact Located.bare_of_expressionPlan entered
  | invocation n =>
    cases entered
    exact ⟨rfl, rfl⟩
  | component n decl =>
    cases entered
    exact ⟨rfl, rfl⟩

theorem fresh_sketches (j : Job) : ∀ s ∈ j.sketches source, s.Fresh := by
  induction j using Job.induction source with
  | step j ih =>
    have parts : ∀ s ∈ (j.plan source).jobs.flatMap (sketches source), s.Fresh := by
      intro s member
      obtain ⟨x, listed, inside⟩ := List.mem_flatMap.mp member
      exact ih x listed s inside
    rw [sketches_eq]
    cases entered : (j.plan source).kind with
    | none => exact parts
    | some k =>
      intro s member
      rw [List.mem_singleton.mp member]
      exact .node (bare_of_plan entered) parts

theorem fresh_flatMap {jobs : List Job} : ∀ s ∈ jobs.flatMap (sketches source), s.Fresh := by
  intro s member
  obtain ⟨j, -, inside⟩ := List.mem_flatMap.mp member
  exact j.fresh_sketches s inside

end Job

theorem fresh_fileSketches {source : List Char} {root : Syntax} :
    ∀ s ∈ fileSketches source root, s.Fresh :=
  Job.fresh_flatMap

/-! ### One insertion -/

@[simp] theorem Role.parent_attach (role : Role) (parent : NodeId) :
    (role.attach parent).parent = parent := by
  cases role <;> rfl

namespace Attach

variable (attach : Attach) (k : NodeKind) (s : Span) (p : Program)

@[simp] theorem size_append : (attach.append k s p).size = p.size + 1 := by
  cases attach <;> simp [append, Program.appendArgument, Program.appendReceiver]

theorem units_append : (attach.append k s p).units = p.units := by
  cases attach <;> rfl

theorem has_append {x : NodeId} (present : p.has x) : (attach.append k s p).has x := by
  rw [Program.has_iff, size_append]
  exact Nat.lt_succ_of_lt (Program.has_iff.mp present)

theorem has_new : (attach.append k s p).has p.nextId := by
  rw [Program.has_iff, size_append]
  exact Nat.lt_succ_self p.size

variable {p} in
theorem grown_append (grown : p.Grown) (present : p.has attach.parent) :
    (attach.append k s p).Grown := by
  cases attach with
  | child parent => exact grown.append k s present
  | argument call => exact grown.appendArgument k s present
  | receiver call => exact grown.appendReceiver k s present

theorem outline?_append (x : NodeId) :
    (attach.append k s p).outline? x =
      if x = p.nextId then some { kind := k.outline, parent := some attach.parent, span := s }
      else p.outline? x := by
  rw [← Program.outline?_append]
  cases attach with
  | child parent => rfl
  | argument call => exact Program.outline?_appendArgument p call k s x
  | receiver call => exact Program.outline?_appendReceiver p call k s x

theorem parent?_new : (attach.append k s p).parent? p.nextId = some attach.parent := by
  have read : ((attach.append k s p).outline? p.nextId).bind (·.parent) = some attach.parent := by
    rw [outline?_append, if_pos rfl]
    rfl
  rwa [Program.outline?, Option.bind_map] at read

theorem span_new : (attach.append k s p).span p.nextId = s := by
  rw [Program.span_eq, outline?_append, if_pos rfl]
  rfl

/-- What can be read off the outline of a payload reads the same at its node. -/
theorem bind_kind?_new {α : Type} {f : NodeKind → Option α}
    (plain : ∀ k : NodeKind, f k.outline = f k) :
    ((attach.append k s p).kind? p.nextId).bind f = f k := by
  rw [Program.bind_kind?_eq plain, outline?_append, if_pos rfl, Option.bind_some, plain]

theorem copied_append : p.Copied (attach.append k s p) 0 := by
  apply Program.copied_of_outline?
  intro id present
  rw [outline?_append, if_neg]
  rintro rfl
  exact Nat.lt_irrefl _ (Program.has_iff.mp present)

end Attach

theorem Role.append_graft (role : Role) (p q : Program) (parent : NodeId) {k : NodeKind}
    (bare : Bare k) (s : Span) :
    (role.attach (parent.shift p.size)).append k s (p.graft q) =
      p.graft ((role.attach parent).append k s q) := by
  have same : k.rename (·.shift p.size) = k := NodeKind.rename_of_references bare.references _
  cases role with
  | child =>
    have appended := Program.append_graft p q parent k s
    rwa [same] at appended
  | argument =>
    have appended := Program.appendArgument_graft p q parent k s
    rwa [same] at appended
  | receiver =>
    have appended := Program.appendReceiver_graft p q parent k s
    rwa [same] at appended

/-! ### Two programs in lockstep -/

/-- A relation that survives the same insertion in both programs, below the nodes in `within` and all
new ones. The numbers of the first program become those of the second by `f`. -/
structure Lockstep (within : NodeId → Prop) (f : NodeId → NodeId) (R : Program → Program → Prop) :
    Prop where
  nextId : ∀ {p q}, R p q → q.nextId = f p.nextId
  enter : ∀ {p q}, R p q → within p.nextId
  append : ∀ {p q} (role : Role) {parent : NodeId} {k : NodeKind} (extent : Extent), R p q →
    within parent → p.has parent → Bare k →
      R ((role.attach parent).append k extent.span p) ((role.attach (f parent)).append k extent.span q)

namespace Lockstep

variable {within : NodeId → Prop} {f : NodeId → NodeId} {R : Program → Program → Prop}

mutual

/-- Planting a sketch in both programs keeps them related. -/
theorem plant (step : Lockstep within f R) {p q : Program} (related : R p q) {parent : NodeId}
    (inside : within parent) (present : p.has parent) :
    (s : Sketch) → s.Fresh → R (s.plant parent p) (s.plant (f parent) q) ∧
      p.size ≤ (s.plant parent p).size
  | .node role kind origin parts, .node bare fresh => by
    rw [Sketch.plant, Sketch.plant, step.nextId related]
    have appended := step.append role origin.extent related inside present bare
    have entered := (role.attach parent).has_new kind origin.extent.span p
    obtain ⟨final, grown⟩ := plantAll step appended (step.enter related) entered parts fresh
    rw [Attach.size_append] at grown
    exact ⟨final, Nat.le_of_succ_le grown⟩

theorem plantAll (step : Lockstep within f R) {p q : Program} (related : R p q) {parent : NodeId}
    (inside : within parent) (present : p.has parent) :
    (sketches : List Sketch) → (∀ s ∈ sketches, s.Fresh) →
      R (Sketch.plantAll parent p sketches) (Sketch.plantAll (f parent) q sketches) ∧
        p.size ≤ (Sketch.plantAll parent p sketches).size
  | [], _ => by
    rw [Sketch.plantAll, Sketch.plantAll]
    exact ⟨related, Nat.le_refl _⟩
  | s :: rest, fresh => by
    rw [Sketch.plantAll, Sketch.plantAll]
    obtain ⟨related', grown⟩ := plant step related inside present s (fresh s List.mem_cons_self)
    have present' : (s.plant parent p).has parent :=
      Program.has_iff.mpr (Nat.lt_of_lt_of_le (Program.has_iff.mp present) grown)
    obtain ⟨final, grown'⟩ := plantAll step related' inside present' rest fun x member =>
      fresh x (List.mem_cons_of_mem s member)
    exact ⟨final, Nat.le_trans grown grown'⟩

end

end Lockstep

/-! ### Invariants -/

namespace Sketch

variable {p : Program} {parent : NodeId} {sketches : List Sketch}

/-- What survives every insertion behind a node survives planting there. -/
theorem plantAll_invariant (within : NodeId → Prop) (Inv : Program → Prop) (start : Inv p)
    (enter : ∀ {q : Program}, Inv q → within q.nextId)
    (keeps : ∀ {q : Program} (attach : Attach) {k : NodeKind} (extent : Extent), Inv q →
      within attach.parent → q.has attach.parent → Bare k → Inv (attach.append k extent.span q))
    (inside : within parent) (present : p.has parent) (fresh : ∀ s ∈ sketches, s.Fresh) :
    Inv (plantAll parent p sketches) := by
  have step : Lockstep within id fun q q' => q = q' ∧ Inv q := by
    constructor
    · rintro q q' ⟨rfl, -⟩
      rfl
    · rintro q q' ⟨rfl, inv⟩
      exact enter inv
    · rintro q q' role parent k extent ⟨rfl, inv⟩ inside present bare
      rw [← role.parent_attach parent] at inside present
      exact ⟨rfl, keeps (role.attach parent) extent inv inside present bare⟩
  exact (step.plantAll ⟨rfl, start⟩ inside present sketches fresh).1.2

theorem copied_plantAll (present : p.has parent) (fresh : ∀ s ∈ sketches, s.Fresh) :
    p.Copied (plantAll parent p sketches) 0 := by
  refine plantAll_invariant (fun _ => True) (p.Copied · 0) ?_ (fun _ => trivial) ?_
    trivial present fresh
  · exact Program.copied_of_outline? fun _ => rfl
  · intro q attach k extent copied _ _ _
    exact copied.trans (attach.copied_append k extent.span q)

theorem grown_plantAll (grown : p.Grown) (present : p.has parent)
    (fresh : ∀ s ∈ sketches, s.Fresh) : (plantAll parent p sketches).Grown := by
  refine plantAll_invariant (fun _ => True) Program.Grown grown (fun _ => trivial) ?_
    trivial present fresh
  intro q attach k extent grown _ present _
  exact attach.grown_append k extent.span grown present

theorem plantAll_graft (q : Program) (present : p.has parent) (fresh : ∀ s ∈ sketches, s.Fresh) :
    plantAll (parent.shift q.size) (q.graft p) sketches = q.graft (plantAll parent p sketches) := by
  have step : Lockstep (fun _ => True) (·.shift q.size) fun r r' => r' = q.graft r := by
    constructor
    · rintro r r' rfl
      exact Program.nextId_graft q r
    · exact fun _ => trivial
    · rintro r r' role parent k extent rfl - - bare
      exact role.append_graft q r parent bare extent.span
  exact (step.plantAll rfl trivial present sketches fresh).1

end Sketch

end JavaCallGraph.Java
