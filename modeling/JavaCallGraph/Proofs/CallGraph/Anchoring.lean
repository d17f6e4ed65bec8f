import JavaCallGraph.Proofs.CallGraph.Dispatching
import JavaCallGraph.Proofs.Points
import Mathlib

/-!
Every edge of a call graph is anchored in the declaration that it leaves.

The caller comes from the walk, the point from an index that was built apart from it, and the source
vertex from a look-up that may answer with another declaration of the same identity. `Anchored` ties
the three together. One link is anchored when it is made, so all links are, after any builds.
-/

namespace JavaCallGraph.CallGraph

variable {p : Program} {settings : Settings} {g : CallGraph}

/-- A link whose edge names a call of its kind and a point around the call, which belongs to the
declaration that the link leaves. -/
structure Anchored (p : Program) (l : Link) : Prop where
  kind : p.callKind? l.edge.call = some l.edge.kind
  around : l.edge.point.node = l.edge.call ∨ l.edge.point.node ∈ p.ancestors l.edge.call
  source : p.sameDeclaration l.edge.point.declaration l.source
  owned : p.Owns l.edge.point.declaration l.edge.point.node

theorem anchored_of_linkOf (forest : p.Forest) (sound : Sound p g) {source target call : NodeId}
    {kind : CallKind} {l : Link}
    (made : linkOf (.reference p settings) g source target kind call = .ok l) : Anchored p l := by
  obtain ⟨point, edge, caller, callee, located, built, leaves, -, rfl⟩ := linkOf_eq_ok.mp made
  obtain ⟨form, -, rfl⟩ := edge_of_eq_ok built
  obtain ⟨declared, above, owned⟩ := PointIndex.containing_build forest located
  obtain ⟨-, same, -⟩ := vertex?_spec sound leaves
  subst declared
  exact ⟨form, List.mem_cons.mp above, Program.sameDeclaration_symm same, owned⟩

/-- After any builds, successful or not, every link is anchored. -/
theorem links_anchored (grown : p.Grown) (reached : Reached (.reference p settings) g) :
    ∀ l ∈ g.links, Anchored p l := by
  induction reached with
  | empty =>
    intro l member
    cases member
  | @build g units reached ih =>
    intro l member
    have step := build_step (s := .reference p settings) grown.forest g units
    rcases step.mem_links member with old | ⟨caller, target, kind, call, made⟩
    · exact ih l old
    · have sound : Sound p g := reached.sound grown.forest
      exact anchored_of_linkOf grown.forest (sound.addVertices units) made

/-- A class that creates itself in a field and in a statement of its constructor. -/
def selfCreating : Program :=
  Program.empty
    |>.addUnit { path := "A.java" }
    |>.append ⟨0⟩ (.type { kind := .classType, name := "A" }) .unknown
    |>.append ⟨1⟩ (.callable { kind := .constructor, name := "A" }) .unknown
    |>.append ⟨2⟩ (.statement (.other "expression_statement")) .unknown
    |>.append ⟨3⟩ (.objectCreation { typeName := "A" }) .unknown
    |>.append ⟨1⟩ (.field { typeName := "A", names := ["a"] }) .unknown
    |>.append ⟨5⟩ (.objectCreation { typeName := "A" }) .unknown

theorem selfCreating_grown : selfCreating.Grown := by
  unfold selfCreating
  repeat' constructor

def selfCreatingGraph : CallGraph where
  vertices := [⟨⟨2⟩, .constructor, "A()", some "A"⟩]
  bySignature := ⟨[("A()", [⟨⟨2⟩, .constructor, "A()", some "A"⟩])]⟩
  links :=
    [⟨⟨2⟩, ⟨2⟩, { kind := .objectCreation, call := ⟨4⟩, point := ⟨1, ⟨2⟩, ⟨3⟩⟩ }⟩,
      ⟨⟨2⟩, ⟨2⟩, { kind := .objectCreation, call := ⟨6⟩, point := ⟨0, ⟨2⟩, ⟨5⟩⟩ }⟩]
  reports :=
    [⟨⟨4⟩, .objectCreation, some ⟨2⟩, .linked 1⟩, ⟨⟨6⟩, .objectCreation, some ⟨2⟩, .linked 1⟩]
  built := true

/-- One link is anchored at a statement, the other at a field. -/
theorem links_anchored_selfCreating :
    build (.reference selfCreating {}) empty selfCreating.units = (selfCreatingGraph, .ok ()) ∧
      ∀ l ∈ selfCreatingGraph.links, Anchored selfCreating l := by
  have built : build (.reference selfCreating {}) empty selfCreating.units =
      (selfCreatingGraph, .ok ()) := by
    rw [build_eq selfCreating_grown.forest rfl (by decide)]
    cbv
  have reached : Reached (.reference selfCreating {})
      (build (.reference selfCreating {}) empty selfCreating.units).1 := .build _ .empty
  rw [built] at reached
  exact ⟨built, links_anchored selfCreating_grown reached⟩

end JavaCallGraph.CallGraph
