import JavaCallGraph.Proofs.CallGraph.Enrolment
import JavaCallGraph.Proofs.CallGraph.Views

/-!
One identity of vertices.

Whether two callables share a vertex is asked in three ways: of two vertices, of a vertex and a
declaration, of two declarations. Each of them takes a short cut for equal nodes and otherwise needs
an owner. They are one relation, `Identified`, which is an equivalence. A hasher sees the signature
only, on which identified callables agree.
-/

namespace JavaCallGraph

namespace Program

variable {p : Program} {a b c : NodeId}

/-- Callables that share a vertex: the same node, or equal signatures below equally named nodes. -/
def Identified (p : Program) (a b : NodeId) : Prop :=
  a = b ∨ (∃ owner, p.ownerName? a = some owner ∧ p.ownerName? b = some owner) ∧
    ∃ signature, p.signature? a = some signature ∧ p.signature? b = some signature

theorem sameDeclaration_iff : p.sameDeclaration a b ↔ p.Identified a b := by
  simp only [sameDeclaration, Identified, Bool.or_eq_true, Bool.and_eq_true, beq_iff_eq,
    Option.isSome_iff_exists]
  refine or_congr_right ⟨?_, ?_⟩
  · rintro ⟨⟨⟨⟨signature, signed⟩, signatures⟩, owner, owned⟩, owners⟩
    exact ⟨⟨owner, owned, owners ▸ owned⟩, signature, signed, signatures ▸ signed⟩
  · rintro ⟨⟨owner, owned, owned'⟩, signature, signed, signed'⟩
    have signatures := signed.trans signed'.symm
    have owners := owned.trans owned'.symm
    exact ⟨⟨⟨⟨signature, signed⟩, signatures⟩, owner, owned⟩, owners⟩

theorem Identified.signature? (identified : p.Identified a b) :
    p.signature? a = p.signature? b := by
  rcases identified with rfl | ⟨-, signature, signed, signed'⟩
  · rfl
  · exact signed.trans signed'.symm

theorem identified_equivalence (p : Program) : Equivalence p.Identified where
  refl a := .inl rfl
  symm := by
    intro a b first
    rw [← sameDeclaration_iff] at first ⊢
    exact sameDeclaration_symm first
  trans := by
    intro a b c first second
    rw [← sameDeclaration_iff] at first second ⊢
    exact sameDeclaration_trans first second

theorem sameRangeAt_of_has (present : p.has a) (present' : p.has b) :
    p.sameRangeAt a b = .ok (p.sameRange a b) := by
  obtain ⟨n, read⟩ := Option.ne_none_iff_exists'.mp (mt get?_eq_none_iff.mp (not_not.mpr present))
  obtain ⟨m, read'⟩ := Option.ne_none_iff_exists'.mp (mt get?_eq_none_iff.mp (not_not.mpr present'))
  rw [sameRangeAt]
  split
  · simp [node, read, read', bind, Except.bind, pure, Except.pure]
  · rfl

theorem sameRange_equivalence (p : Program) : Equivalence fun a b => p.sameRange a b where
  refl _ := sameRange_iff.mpr (.inl rfl)
  symm := sameRange_symm
  trans := sameRange_trans

end Program

variable {p : Program} {a b : NodeId}

theorem Vertex.of_callable (callable : p.isCallable a) :
    ∃ v, Vertex.of p a = .ok v ∧ v.declaration = a := by
  obtain ⟨d, read⟩ := Option.isSome_iff_exists.mp callable
  refine ⟨⟨a, d.kind, d.signature, p.ownerName? a⟩, ?_, rfl⟩
  rw [Vertex.of, read]

theorem Vertex.hashInto_of_identified {v w : Vertex} (made : Vertex.of p v.declaration = .ok v)
    (made' : Vertex.of p w.declaration = .ok w)
    (identified : p.Identified v.declaration w.declaration) {σ : Type} (write : σ → String → σ)
    (state : σ) : v.hashInto write state = w.hashInto write state := by
  have signatures := identified.signature?
  rw [Vertex.signature?_of made, Vertex.signature?_of made', Option.some.injEq] at signatures
  rw [Vertex.hashInto, Vertex.hashInto, signatures]

namespace CallGraph

/-- Vertices of callables are the same, stand for each other's declarations, and have the same
declarations, all exactly if the callables are identified, and then they have equal hashes. This is
an equivalence of callables, as equality of ranges is one of nodes. -/
theorem vertex_identity_is_equivalence (p : Program) :
    (∀ a b, p.isCallable a → p.isCallable b →
      ∃ v w, Vertex.of p a = .ok v ∧ Vertex.of p b = .ok w ∧
        (v.same w ↔ p.Identified a b) ∧ (v.isFor p b ↔ p.Identified a b) ∧
        (w.isFor p a ↔ p.Identified a b) ∧ (p.sameDeclaration a b ↔ p.Identified a b) ∧
        (p.Identified a b → ∀ (σ : Type) (write : σ → String → σ) (state : σ),
          v.hashInto write state = w.hashInto write state)) ∧
      (Equivalence fun a b : { d // p.isCallable d } => p.Identified a b) ∧
      Equivalence fun a b : { n // p.has n } => p.sameRangeAt a b = .ok true := by
  have identity := p.identified_equivalence
  refine ⟨fun a b callable callable' => ?_, identity.comap Subtype.val, ?_⟩
  · obtain ⟨v, made, rfl⟩ := Vertex.of_callable callable
    obtain ⟨w, made', rfl⟩ := Vertex.of_callable callable'
    have turned : p.Identified w.declaration v.declaration ↔
        p.Identified v.declaration w.declaration := ⟨identity.symm, identity.symm⟩
    refine ⟨v, w, made, made', ?_, ?_, ?_, Program.sameDeclaration_iff, ?_⟩
    · rw [Vertex.same_eq made made', Program.sameDeclaration_iff]
    · rw [Vertex.isFor_eq made, Program.sameDeclaration_iff]
    · rw [Vertex.isFor_eq made', Program.sameDeclaration_iff, turned]
    · intro identified σ write state
      exact Vertex.hashInto_of_identified made made' identified write state
  · have ranges : (fun a b : { n // p.has n } => p.sameRangeAt a b = .ok true) =
        fun a b : { n // p.has n } => p.sameRange a b = true := by
      funext a b
      rw [Program.sameRangeAt_of_has a.2 b.2, Except.ok.injEq]
    rw [ranges]
    exact p.sameRange_equivalence.comap Subtype.val

/-- One method in two classes of the same name, and two more outside of all types. -/
def strayMethods : Program :=
  Program.empty
    |>.addUnit { path := "A.java" }
    |>.append ⟨0⟩ (.type { kind := .classType, name := "A" }) .unknown
    |>.append ⟨1⟩ (.callable (.method "m")) .unknown
    |>.addUnit { path := "B.java" }
    |>.append ⟨3⟩ (.type { kind := .classType, name := "A" }) .unknown
    |>.append ⟨4⟩ (.callable (.method "m")) .unknown
    |>.append ⟨3⟩ (.callable (.method "m")) .unknown
    |>.append ⟨3⟩ (.callable (.method "m")) .unknown

/-- Equal signatures make the methods of the two classes one vertex, but not the two methods without
an owner. -/
theorem vertex_identity_is_equivalence_strays :
    strayMethods.Identified ⟨2⟩ ⟨5⟩ ∧ ¬strayMethods.Identified ⟨6⟩ ⟨7⟩ ∧
      (∃ v w, Vertex.of strayMethods ⟨2⟩ = .ok v ∧ Vertex.of strayMethods ⟨5⟩ = .ok w ∧
        v.same w ∧ v.hashInto String.append "" = w.hashInto String.append "") ∧
      ∃ v w, Vertex.of strayMethods ⟨6⟩ = .ok v ∧ Vertex.of strayMethods ⟨7⟩ = .ok w ∧
        v.owner = none ∧ v.signature = w.signature ∧ ¬v.same w := by
  have owned : strayMethods.Identified ⟨2⟩ ⟨5⟩ := Program.sameDeclaration_iff.mp (by decide)
  have stray : ¬strayMethods.Identified ⟨6⟩ ⟨7⟩ := by
    rw [← Program.sameDeclaration_iff]
    decide
  obtain ⟨identity, -⟩ := vertex_identity_is_equivalence strayMethods
  refine ⟨owned, stray, ?_, ?_⟩
  · obtain ⟨v, w, made, made', same, -, -, -, hashes⟩ := identity ⟨2⟩ ⟨5⟩ (by decide) (by decide)
    exact ⟨v, w, made, made', same.mpr owned, hashes owned _ _ _⟩
  · obtain ⟨v, w, made, made', same, -⟩ := identity ⟨6⟩ ⟨7⟩ (by decide) (by decide)
    refine ⟨v, w, made, made', ?_, ?_, mt same.mp stray⟩
    · cases made
      decide
    · cases made
      cases made'
      decide

end CallGraph

end JavaCallGraph
