import JavaCallGraph.Proofs.CallGraph.Builds

/-!
What builds keep, over any program.

A build enrols callables, adds links between vertices and reports, and marks the graph as built. A
property that each of these keeps holds of every graph that builds lead to, however they ended, and
also where the links of the program make no forest.
-/

namespace JavaCallGraph

/-- What every visit keeps, a walk keeps, also where the links of the program make no forest. -/
theorem Walk.run_invariant {σ : Type} {p : Program} {visit : Walk.Visitor σ} {Inv : σ → Prop}
    (keeps : ∀ {state} node scope, Inv state → Inv (visit state node scope).1) {state : σ}
    (inv : Inv state) (scope : Walk.Scope) (work : List Walk.Step) :
    Inv (Walk.run p visit state scope work).1 := by
  have advanced : ∀ {state} scope step, Inv state →
      Inv (Walk.advance p visit state scope step).1 := by
    intro state scope step inv
    cases step with
    | enter node =>
      have visited := keeps node scope inv
      rw [Walk.advance]
      split
      · exact inv
      · split
        · exact inv
        · split <;> simp_all
    | pushCallable callable replay => exact inv
    | popCallable replay => exact inv
    | popType => exact inv
  fun_induction Walk.run p visit state scope work with
  | case1 state scope => exact inv
  | case2 state scope step rest state' e failed =>
    have kept := advanced scope step inv
    rw [failed] at kept
    exact kept
  | case3 state scope step rest state' steps scope' done ih =>
    apply ih
    have kept := advanced scope step inv
    rw [done] at kept
    exact kept

namespace CallGraph

variable {s : Basis} {g : CallGraph} {Inv : CallGraph → Prop}

/-- A property that holds of the empty graph and that every change made by a build keeps. -/
structure Lasting (s : Basis) (Inv : CallGraph → Prop) : Prop where
  empty : Inv empty
  enroll : ∀ {g d}, s.program.isCallable d → Inv g → Inv (enroll s.program g d)
  addLink : ∀ {g source target kind call link},
    linkOf s g source target kind call = .ok link → Inv g → Inv (g.addLink link)
  addReport : ∀ {g} r, Inv g → Inv (g.addReport r)
  complete : ∀ {g}, Inv g → Inv { g with built := true }

namespace Lasting

variable (lasting : Lasting s Inv)

include lasting

theorem addVertices (inv : Inv g) (units : List NodeId) : Inv (addVertices s.program g units) :=
  List.foldlRecOn _ _ inv fun _ kept _ member => lasting.enroll (List.mem_filter.mp member).2 kept

theorem connect (inv : Inv g) (caller : NodeId) (kind : CallKind) (call : NodeId)
    (targets : List NodeId) (attempt : Attempt) :
    Inv (connect s caller kind call targets attempt g).1 := by
  induction targets generalizing g attempt with
  | nil => exact inv
  | cons target rest ih =>
    rw [CallGraph.connect, addEdge_eq]
    cases made : linkOf s g caller target kind call with
    | ok link => exact ih (lasting.addLink made inv) _
    | error e =>
      by_cases recoverable : e.isRecoverable
      · simpa [Except.map, recoverable] using ih inv _
      · simpa [Except.map, recoverable] using inv

theorem linkTargets (inv : Inv g) (caller call : NodeId) (kind : CallKind) (scope : Walk.Scope) :
    Inv (linkTargets s g caller call kind scope).1 := by
  unfold CallGraph.linkTargets
  split
  · exact lasting.connect inv caller kind call _ {}
  · split <;> exact inv
  · split <;> exact inv

theorem linkCall (inv : Inv g) (call : NodeId) (kind : CallKind) (scope : Walk.Scope) :
    Inv (linkCall s g call kind scope).1 := by
  unfold CallGraph.linkCall
  split
  · next caller _ =>
    have linked := lasting.linkTargets inv caller call kind scope
    split
    · next ended =>
      rw [ended] at linked
      exact lasting.addReport _ linked
    · next ended =>
      rw [ended] at linked
      exact linked
  · exact lasting.addReport _ inv
  · exact inv

theorem linker (inv : Inv g) (node : NodeId) (scope : Walk.Scope) :
    Inv (linker s g node scope).1 := by
  unfold CallGraph.linker
  split
  · exact inv
  · split
    · next kind _ =>
      have linked := lasting.linkCall inv node kind scope
      split
      · next ended =>
        rw [ended] at linked
        exact linked
      · next ended =>
        rw [ended] at linked
        exact linked
    · exact inv
  · exact inv

theorem build (inv : Inv g) (units : List NodeId) : Inv (build s g units).1 := by
  have visits : ∀ {state} node scope, Inv state → Inv (CallGraph.linker s state node scope).1 :=
    fun node scope kept => lasting.linker kept node scope
  have walked : Inv (addEdges s (CallGraph.addVertices s.program g units) units).1 :=
    Walk.run_invariant visits (lasting.addVertices inv units) _ _
  unfold CallGraph.build
  split
  · exact inv
  · split
    · exact inv
    · split
      · next ended =>
        rw [ended] at walked
        exact lasting.complete walked
      · next ended =>
        rw [ended] at walked
        exact walked

theorem reached (reached : Reached s g) : Inv g := by
  induction reached with
  | empty => exact lasting.empty
  | build units _ inv => exact lasting.build inv units

end Lasting

theorem sound_lasting (s : Basis) : Lasting s (Sound s.program) where
  empty := sound_empty s.program
  enroll _ sound := sound.enroll _
  addLink _ sound := ⟨sound.vertex, sound.bucket⟩
  addReport _ sound := ⟨sound.vertex, sound.bucket⟩
  complete sound := ⟨sound.vertex, sound.bucket⟩

end CallGraph

end JavaCallGraph
