import JavaCallGraph.CallGraph.Build
import JavaCallGraph.Proofs.Resolver
import Mathlib.Data.List.Find

/-!
The vertices of a call graph.

`Sound` ties a graph to its program: a vertex says the truth about its declaration, and the index
by signature holds the vertices and nothing else. It survives every step of a build, so look-ups
answer for the program and not for the order of insertion.
-/

namespace JavaCallGraph

variable {p : Program}

theorem Vertex.of_eq_ok {d : NodeId} {v : Vertex} :
    Vertex.of p d = .ok v ↔ v.declaration = d ∧ v.owner = p.ownerName? d ∧
      ∃ decl, p.callable? d = some decl ∧ v.kind = decl.kind ∧ v.signature = decl.signature := by
  unfold Vertex.of
  split
  · next decl read =>
    obtain ⟨declaration, kind, signature, owner⟩ := v
    simp only [read, Except.ok.injEq, Vertex.mk.injEq, Option.some.injEq, exists_eq_left']
    grind
  · next absent => simp [absent]

theorem Vertex.signature?_of {v : Vertex} (made : Vertex.of p v.declaration = .ok v) :
    p.signature? v.declaration = some v.signature := by
  obtain ⟨-, -, decl, read, -, signature⟩ := Vertex.of_eq_ok.mp made
  exact Program.signature?_eq_some.mpr ⟨decl, read, signature.symm⟩

/-- A vertex stands for the declarations that count as the same as its own. -/
theorem Vertex.isFor_eq {v : Vertex} (made : Vertex.of p v.declaration = .ok v) (d : NodeId) :
    v.isFor p d = p.sameDeclaration v.declaration d := by
  have signed := Vertex.signature?_of made
  have owner := (Vertex.of_eq_ok.mp made).2.1
  rw [Vertex.isFor, Program.sameDeclaration, signed, ← owner, Option.isSome_some, Bool.true_and,
    BEq.comm (a := p.signature? d)]

namespace CallGraph

structure Sound (p : Program) (g : CallGraph) : Prop where
  vertex : ∀ v ∈ g.vertices, Vertex.of p v.declaration = .ok v
  bucket : ∀ signature, g.bySignature.get signature = g.vertices.filter (·.signature = signature)

theorem sound_empty (p : Program) : Sound p empty where
  vertex := by simp [empty]
  bucket := fun _ => rfl

theorem Sound.addVertex {g : CallGraph} (sound : Sound p g) {d : NodeId} {v : Vertex}
    (made : Vertex.of p d = .ok v) : Sound p (g.addVertex v) where
  vertex := by
    intro w member
    rcases List.mem_append.mp member with old | new
    · exact sound.vertex w old
    · rw [List.mem_singleton.mp new, (Vertex.of_eq_ok.mp made).1]
      exact made
  bucket := by
    intro signature
    simp only [CallGraph.addVertex, List.filter_append]
    by_cases same : v.signature = signature
    · subst same
      simp [sound.bucket]
    · simp [Index.get_insert_of_ne _ same, sound.bucket, same]

theorem Sound.enroll {g : CallGraph} (sound : Sound p g) (d : NodeId) :
    Sound p (enroll p g d) := by
  unfold CallGraph.enroll
  split
  · next made => exact sound.addVertex made
  · exact sound

theorem Sound.addVertices {g : CallGraph} (sound : Sound p g) (units : List NodeId) :
    Sound p (addVertices p g units) :=
  List.foldlRecOn _ _ sound fun _ kept d _ => kept.enroll d

/-! ### Look-up -/

theorem vertex?_spec {g : CallGraph} (sound : Sound p g) {d : NodeId} {v : Vertex}
    (found : g.vertex? p d = some v) :
    v ∈ g.vertices ∧ p.sameDeclaration v.declaration d ∧ p.signature? d = some v.signature := by
  obtain ⟨signature, signed, found⟩ := Option.bind_eq_some_iff.mp found
  have member := List.mem_of_find?_eq_some found
  rw [sound.bucket, List.mem_filter, decide_eq_true_eq] at member
  have stands := List.find?_some found
  rw [Vertex.isFor_eq (sound.vertex v member.1)] at stands
  exact ⟨member.1, stands, member.2 ▸ signed⟩

theorem vertex_eq_ok {g : CallGraph} {d : NodeId} {v : Vertex} :
    g.vertex p d = .ok v ↔ g.vertex? p d = some v := by
  unfold vertex
  split <;> simp_all

theorem isFor_congr {v : Vertex} {a b : NodeId} (made : Vertex.of p v.declaration = .ok v)
    (same : p.sameDeclaration a b) : v.isFor p a = v.isFor p b := by
  rw [Vertex.isFor_eq made, Vertex.isFor_eq made, Bool.eq_iff_iff]
  constructor
  · intro first
    exact Program.sameDeclaration_trans first same
  · intro second
    exact Program.sameDeclaration_trans second (Program.sameDeclaration_symm same)

/-- Declarations that count as the same have the same vertex. -/
theorem vertex?_congr {g : CallGraph} (sound : Sound p g) {a b : NodeId}
    (same : p.sameDeclaration a b) : g.vertex? p a = g.vertex? p b := by
  have signatures : p.signature? a = p.signature? b := by
    simp only [Program.sameDeclaration, Bool.or_eq_true, Bool.and_eq_true, beq_iff_eq] at same
    rcases same with rfl | ⟨⟨⟨-, signatures⟩, -⟩, -⟩
    · rfl
    · exact signatures
  simp only [vertex?, signatures, sound.bucket]
  refine Option.bind_congr fun signature _ => ?_
  refine List.find?_congr fun v member => ?_
  exact isFor_congr (sound.vertex v (List.mem_filter.mp member).1) same

/-! ### Every callable below the units gets a vertex -/

theorem vertex?_addVertex_isSome {g : CallGraph} {d : NodeId} {v : Vertex}
    (found : (g.vertex? p d).isSome) : ((g.addVertex v).vertex? p d).isSome := by
  obtain ⟨w, found⟩ := Option.isSome_iff_exists.mp found
  obtain ⟨signature, signed, found⟩ := Option.bind_eq_some_iff.mp found
  simp only [vertex?, signed, CallGraph.addVertex, Option.bind_eq_bind, Option.bind_some]
  by_cases same : v.signature = signature
  · subst same
    simp [found]
  · simp [Index.get_insert_of_ne _ same, found]

theorem vertex?_enroll_isSome {g : CallGraph} {d e : NodeId} (found : (g.vertex? p d).isSome) :
    ((enroll p g e).vertex? p d).isSome := by
  unfold enroll
  split
  · exact vertex?_addVertex_isSome found
  · exact found

theorem vertex?_enroll_self {g : CallGraph} {d : NodeId} (callable : p.isCallable d) :
    ((enroll p g d).vertex? p d).isSome := by
  obtain ⟨decl, read⟩ := Option.isSome_iff_exists.mp callable
  have signed : p.signature? d = some decl.signature := by simp [Program.signature?, read]
  unfold enroll
  cases found : g.vertex? p d with
  | some v => simp [found]
  | none =>
    simp [Vertex.of, read, vertex?, signed, CallGraph.addVertex, Vertex.isFor]

theorem vertex?_addVertices_isSome {g : CallGraph} {units : List NodeId} {d : NodeId}
    (member : d ∈ p.allUnder units) (callable : p.isCallable d) :
    ((addVertices p g units).vertex? p d).isSome := by
  have listed : d ∈ (p.allUnder units).filter p.isCallable := List.mem_filter.mpr ⟨member, callable⟩
  unfold addVertices
  generalize (p.allUnder units).filter p.isCallable = callables at listed
  induction callables generalizing g with
  | nil => cases listed
  | cons e later ih =>
    rw [List.foldl_cons]
    by_cases last : d ∈ later
    · exact ih last
    · have same : d = e := (List.mem_cons.mp listed).resolve_right last
      subst same
      exact List.foldlRecOn (motive := fun g => (vertex? g p d).isSome) later _
        (vertex?_enroll_self callable) fun _ kept _ _ => vertex?_enroll_isSome kept

end CallGraph

end JavaCallGraph
