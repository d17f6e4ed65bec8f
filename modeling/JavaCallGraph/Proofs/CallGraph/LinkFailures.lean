import JavaCallGraph.Proofs.CallGraph.Builds
import JavaCallGraph.Proofs.ResolverFailures

/-!
Which failures of a link end a build.

A missing vertex is never a reason to stop. What else may fail, the place of the call and its kind,
depends neither on the graph nor on the target, and with the reference answers it does not stop a
build either.
-/

namespace JavaCallGraph.CallGraph

variable {p : Program} {settings : Settings} {s : Basis} {g : CallGraph}

/-- A failure that concerns one call site. -/
def Recoverable (e : Error) : Prop := e.isRecoverable

theorem vertex_recoverable (g : CallGraph) (d : NodeId) :
    FailsOnlyBy Recoverable (g.vertex p d) := by
  unfold vertex
  split
  · exact .ok _
  · exact .error rfl

theorem containing_recoverable {declaration call : NodeId} (present : p.has call) :
    FailsOnlyBy Recoverable ((PointIndex.build p).containing declaration call) := by
  have known : (PointIndex.build p).program.has call := present
  unfold PointIndex.containing
  rw [known]
  split
  · next absent => cases absent
  · split
    · exact .ok _
    · exact .error rfl

theorem edge_recoverable {kind : CallKind} {call : NodeId} {point : ProgramPoint}
    (isCall : p.callKind? call = some kind) :
    FailsOnlyBy Recoverable (Edge.of p kind call point) := by
  obtain ⟨k, kindAt, form⟩ := Option.bind_eq_some_iff.mp isCall
  obtain ⟨n, read, rfl⟩ := Option.map_eq_some_iff.mp kindAt
  unfold Edge.of
  rw [Program.node_eq_ok.mpr read]
  refine .bind (.ok n) ?_
  rintro m ⟨⟩
  split
  · next other => exact absurd form other
  · split
    · exact .error rfl
    · exact .ok _

/-- The part of a link that the vertices of the graph decide. -/
def ends (s : Basis) (g : CallGraph) (source target : NodeId) (edge : Edge) : Except Error Link := do
  let caller ← g.vertex s.program source
  let callee ← g.vertex s.program target
  return { source := caller.declaration, target := callee.declaration, edge }

theorem linkOf_eq_ends (g : CallGraph) (source target : NodeId) (kind : CallKind) (call : NodeId) :
    linkOf s g source target kind call = (do
      let point ← s.facts.containingPoint source call
      let edge ← Edge.of s.program kind call point
      ends s g source target edge) :=
  rfl

theorem ends_recoverable (g : CallGraph) (source target : NodeId) (edge : Edge) :
    FailsOnlyBy Recoverable (ends s g source target edge) := by
  apply FailsOnlyBy.bind (vertex_recoverable g source)
  intro caller _
  apply FailsOnlyBy.bind (vertex_recoverable g target)
  intro callee _
  exact .ok _

theorem linkOf_recoverable {kind : CallKind} {call : NodeId} (isCall : p.callKind? call = some kind)
    (g : CallGraph) (source target : NodeId) :
    FailsOnlyBy Recoverable (linkOf (.reference p settings) g source target kind call) := by
  apply FailsOnlyBy.bind (containing_recoverable (Program.has_of_callKind? isCall))
  intro point _
  apply FailsOnlyBy.bind (edge_recoverable isCall)
  intro edge _
  exact ends_recoverable g source target edge

theorem Fails.links_eq_nil {call : NodeId} {kind : CallKind} {scope : Walk.Scope}
    {links : List Link} {e : Error} (isCall : p.callKind? call = some kind)
    (fails : Fails (.reference p settings) g call kind scope links e) : links = [] := by
  cases fails with
  | unlinked _ _ failed final => exact absurd (linkOf_recoverable isCall g _ _ _ failed) final
  | noTargets _ _ _ => rfl
  | unresolved _ _ _ => rfl
  | outside _ _ => rfl

/-- The failure of a computation, if it is not recoverable. -/
def fatal? {α : Type} : Except Error α → Option Error
  | .ok _ => none
  | .error e => if e.isRecoverable then none else some e

theorem fatal?_eq_none {α : Type} {computed : Except Error α}
    (fails : FailsOnlyBy Recoverable computed) : fatal? computed = none := by
  cases computed with
  | ok a => rfl
  | error e => exact if_pos (fails e rfl)

/-- What stops the linking of a call is independent of the graph and of the target. -/
theorem fatal?_linkOf (g g' : CallGraph) (source target target' : NodeId) (kind : CallKind)
    (call : NodeId) :
    fatal? (linkOf s g source target kind call) = fatal? (linkOf s g' source target' kind call) := by
  -- the two computations part only where the vertices come in
  rw [linkOf_eq_ends g, linkOf_eq_ends g']
  cases s.facts.containingPoint source call with
  | error e => rfl
  | ok point =>
    simp only [bind, Except.bind]
    cases Edge.of s.program kind call point with
    | error e => rfl
    | ok edge =>
      exact (fatal?_eq_none (ends_recoverable g source target edge)).trans
        (fatal?_eq_none (ends_recoverable g' source target' edge)).symm

end JavaCallGraph.CallGraph
