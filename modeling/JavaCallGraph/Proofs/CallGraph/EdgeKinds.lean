import JavaCallGraph.Proofs.CallGraph.LibraryTargets
import JavaCallGraph.Proofs.Java.Placement
import Mathlib

/-!
Edges by kind, and the vertices they end at.

Up to dispatch, methods and constructors are told apart: a creation or an invocation is answered with
a constructor, a method call with a method and what overrides it. Two look-ups forget the difference.
A library callable is found again by its key, and the end of an edge by signature and owner name. A
method that is named like its class may share both with a constructor.
-/

namespace JavaCallGraph

namespace Hierarchy

variable {h : Hierarchy} {type decl m : NodeId} {signature : String}

theorem callableKind?_of_signed (found : h.methodWithSignature? type signature = some m) :
    h.program.callableKind? m = some .method :=
  Program.callableKind?_of_member (methodWithSignature?_spec found).1

theorem callableKind?_of_found (found : h.findBySignature? type decl = some m) :
    h.program.callableKind? m = some .method := by
  obtain ⟨signature, -, found⟩ := Option.bind_eq_some_iff.mp found
  obtain ⟨t, -, here⟩ := List.exists_of_findSome?_eq_some found
  exact callableKind?_of_signed here

/-- Whatever overrides a declaration is a method. -/
theorem callableKind?_of_overrides (member : m ∈ h.overriddenBy decl) :
    m = decl ∨ h.program.callableKind? m = some .method := by
  refine overriddenBy_rec
    (motive := fun result => ∀ x ∈ result, x = decl ∨ h.program.callableKind? x = some .method)
    (by simp) ?_ m member
  intro signature _ sub m found result kept x joined
  rcases List.mem_append.mp joined with old | new
  · exact kept x old
  · rw [List.mem_singleton.mp new]
    exact .inr (callableKind?_of_signed found)

end Hierarchy

/-- The declaration that a look-up by key answers with for a library callable. -/
def Program.FoundFor (p : Program) (r d : NodeId) : Prop :=
  (p.unit? r).any (·.origin == .library) ∧ ∃ signature, p.qualifiedSignature? r = some signature ∧
    (Hierarchy.build p).lookupBySignature? signature = some d

/-- A declaration that is taken for a callable of some kind: one of that kind, or the one found for
such a callable in a library. -/
def Program.PassesFor (p : Program) (kind : CallableKind) (d : NodeId) : Prop :=
  ∃ r, p.callableKind? r = some kind ∧ (d = r ∨ p.FoundFor r d)

/-- A declaration that is not of some kind, but counts as one that passes for that kind. -/
def Program.Displaces (p : Program) (kind : CallableKind) (a : NodeId) : Prop :=
  p.callableKind? a ≠ some kind ∧ ∃ d, p.PassesFor kind d ∧ p.sameDeclaration a d

namespace Resolver

variable {h : Hierarchy} {decl : NodeId} {signature : QualifiedSignature}

theorem inLibrary_of_report (reported : report h decl = .ok (.signature signature)) :
    (h.program.unit? decl).any (·.origin == .library) := by
  unfold report at reported
  split at reported
  · next library => exact library
  · cases reported

end Resolver

namespace CallGraph

variable {p : Program} {settings : Settings} {g : CallGraph} {call target m : NodeId}
  {kind : CallKind} {scope : Walk.Scope} {reached : List NodeId}

theorem Widened.callableKind? (widened : Widened p settings call target scope (.targets reached))
    (member : m ∈ reached) : m = target ∨ p.callableKind? m = some .method := by
  obtain rfl | overrides | ⟨t, found⟩ := widened.cases_mem member
  · exact .inl rfl
  · exact Hierarchy.callableKind?_of_overrides overrides
  · exact .inr (Hierarchy.callableKind?_of_found found)

/-- What a resolution is taken to stand for. -/
theorem passesFor_of_declarationOf {runs : CallableKind} {decl : NodeId} {resolution : Resolution}
    (ofKind : p.callableKind? decl = some runs)
    (reported : Resolver.report (Hierarchy.build p) decl = .ok resolution)
    (found : declarationOf (.reference p settings) kind resolution = .ok m) :
    p.PassesFor runs m := by
  cases resolution with
  | declaration d =>
    cases found
    exact ⟨decl, ofKind, .inl (Resolver.eq_of_report reported)⟩
  | signature signature =>
    rw [declarationOf] at found
    split at found
    · cases found
    · have lookedUp := Resolver.orUnresolved_eq_ok.mp found
      exact ⟨decl, ofKind, .inr ⟨Resolver.inLibrary_of_report reported, signature,
        Resolver.signed_of_report reported, lookedUp⟩⟩

/-- Whatever a call may run passes for a callable of the kind that it runs. -/
theorem passesFor_of_targets (isCall : p.callKind? call = some kind)
    (found : targets (.reference p settings) call kind scope = .ok (.targets reached)) :
    ∀ m ∈ reached, p.PassesFor kind.runs m := by
  obtain ⟨resolution, resolved, found⟩ := bind_eq_ok.mp found
  obtain ⟨named, declared, found⟩ := bind_eq_ok.mp found
  obtain ⟨kind', decl, isCall', ofKind, reported⟩ := Resolver.resolveWith_reports resolved
  cases isCall.symm.trans isCall'
  have passes := passesFor_of_declarationOf ofKind reported declared
  intro m member
  cases kind with
  | methodCall =>
    rcases (dispatch_widened found).callableKind? member with rfl | method
    · exact passes
    · exact ⟨m, method, .inl rfl⟩
  | objectCreation =>
    cases found
    rwa [List.mem_singleton.mp member]
  | constructorInvocation =>
    cases found
    rwa [List.mem_singleton.mp member]

/-- A link ends at a vertex of the kind that its call runs, or at one that displaces such a vertex. -/
def EndsInKind (p : Program) (g : CallGraph) (l : Link) : Prop :=
  ∃ v ∈ g.vertices, v.declaration = l.target ∧
    (v.kind = l.edge.kind.runs ∨ p.Displaces l.edge.kind.runs l.target)

theorem endsInKind_of_makes (sound : Sound p g) {l : Link}
    (makes : Makes (.reference p settings) g l) : EndsInKind p g l := by
  obtain ⟨caller, call, kind, scope, reached, found, target, member, made⟩ := makes
  obtain ⟨point, edge, tail, head, -, built, -, enters, rfl⟩ := linkOf_eq_ok.mp made
  obtain ⟨isCall, -, rfl⟩ := edge_of_eq_ok built
  obtain ⟨listed, same, -⟩ := vertex?_spec sound enters
  refine ⟨head, listed, rfl, ?_⟩
  by_cases agrees : head.kind = kind.runs
  · exact .inl agrees
  · obtain ⟨-, -, decl, read, ofKind, -⟩ := Vertex.of_eq_ok.mp (sound.vertex head listed)
    have other : p.callableKind? head.declaration ≠ some kind.runs := by
      simpa [Program.callableKind?, read, ← ofKind] using agrees
    exact .inr ⟨other, target, passesFor_of_targets isCall found target member, same⟩

theorem Step.endsInKind {units : List NodeId} {g' : CallGraph} {result : Except Error Unit}
    (step : Step (.reference p settings) g units (g', result)) (sound : Sound p g)
    (older : ∀ l ∈ g.links, EndsInKind p g l) : ∀ l ∈ g'.links, EndsInKind p g' l := by
  obtain ⟨-, links, -, enrolled⟩ := addVertices_frame p g units
  have walked : ∀ {g' result}, Pass (.reference p settings) (addVertices p g units)
      (sites (.reference p settings) units) (g', result) → ∀ l ∈ g'.links, EndsInKind p g' l := by
    intro g' result pass l member
    rw [EndsInKind, pass.vertices]
    rcases pass.mem_links member with old | makes
    · rw [links] at old
      obtain ⟨v, listed, ends⟩ := older l old
      exact ⟨v, enrolled.subset listed, ends⟩
    · exact endsInKind_of_makes (sound.addVertices units) makes
  cases step with
  | kept _ => exact older
  | missing _ => exact older
  | finished _ pass => exact fun l member => walked pass l member
  | failed _ pass => exact walked pass

/-- After any builds, successful or not, a link ends at a vertex of the kind that its call runs, or at
one whose declaration has the identity of another that passes for that kind. -/
theorem edge_kinds_agree_unless_displaced (grown : p.Grown)
    (reached : Reached (.reference p settings) g) : ∀ l ∈ g.links, EndsInKind p g l := by
  induction reached with
  | empty =>
    intro l member
    cases member
  | @build g units reached ih =>
    have step := build_step (s := .reference p settings) grown.forest g units
    exact step.endsInKind (reached.sound grown.forest) ih

end CallGraph

/-! ### A method named like its class -/

namespace Source

def namedLikeClass : Source where
  path := "A.java"
  text := "class A { void A() { new A(); } A() { } }"

def namedLikeClassTree : Java.Syntax :=
  .node "program" none true ⟨⟨0, 0⟩, ⟨0, 41⟩⟩
    [.node "class_declaration" none true ⟨⟨0, 0⟩, ⟨0, 41⟩⟩
      [.node "identifier" (some "name") true ⟨⟨0, 6⟩, ⟨0, 7⟩⟩ [],
        .node "class_body" (some "body") true ⟨⟨0, 8⟩, ⟨0, 41⟩⟩
          [.node "method_declaration" none true ⟨⟨0, 10⟩, ⟨0, 31⟩⟩
            [.node "void_type" (some "type") true ⟨⟨0, 10⟩, ⟨0, 14⟩⟩ [],
              .node "identifier" (some "name") true ⟨⟨0, 15⟩, ⟨0, 16⟩⟩ [],
              .node "formal_parameters" (some "parameters") true ⟨⟨0, 16⟩, ⟨0, 18⟩⟩ [],
              .node "block" (some "body") true ⟨⟨0, 19⟩, ⟨0, 31⟩⟩
                [.node "expression_statement" none true ⟨⟨0, 21⟩, ⟨0, 29⟩⟩
                  [.node "object_creation_expression" none true ⟨⟨0, 21⟩, ⟨0, 28⟩⟩
                    [.node "type_identifier" (some "type") true ⟨⟨0, 25⟩, ⟨0, 26⟩⟩ [],
                      .node "argument_list" (some "arguments") true ⟨⟨0, 26⟩, ⟨0, 28⟩⟩ []]]]],
            .node "constructor_declaration" none true ⟨⟨0, 32⟩, ⟨0, 39⟩⟩
              [.node "identifier" (some "name") true ⟨⟨0, 32⟩, ⟨0, 33⟩⟩ [],
                .node "formal_parameters" (some "parameters") true ⟨⟨0, 33⟩, ⟨0, 35⟩⟩ [],
                .node "constructor_body" (some "body") true ⟨⟨0, 36⟩, ⟨0, 39⟩⟩ []]]]]

set_option maxRecDepth 6000 in
theorem read?_namedLikeClass :
    Java.Syntax.read? "class A { void A() { new A(); } A() { } }" = some namedLikeClassTree := by
  cbv

end Source

namespace CallGraph

def namedLikeClass (hash : String) : Program :=
  Program.empty
    |>.addUnit { path := "A.java", contentHash := hash }
    |>.append ⟨0⟩ (.type { kind := .classType, name := "A" }) ⟨1, 1, 0, 41⟩
    |>.append ⟨1⟩ (.callable { kind := .method, name := "A", returnType := some "void" })
      ⟨1, 1, 10, 31⟩
    |>.append ⟨2⟩ (.statement (.other "expression_statement")) ⟨1, 1, 21, 29⟩
    |>.append ⟨3⟩ (.objectCreation { typeName := "A" }) ⟨1, 1, 21, 28⟩
    |>.append ⟨1⟩ (.callable { kind := .constructor, name := "A" }) ⟨1, 1, 32, 39⟩

theorem lowerSource_namedLikeClass (hash : String) :
    Java.lowerSource .empty "A.java" .source hash "class A { void A() { new A(); } A() { } }"
      Source.namedLikeClassTree = namedLikeClass hash :=
  Java.lowerSource_eq_of_runFor 10 (by cbv)

theorem ofSources_namedLikeClass :
    ∃ hash, Program.ofSources [.namedLikeClass] = .ok (namedLikeClass hash) := by
  refine ⟨Sha256.ofText Source.namedLikeClass.text, ?_⟩
  rw [← lowerSource_namedLikeClass]
  exact Program.ofSourcesBy_of_parse (s := .namedLikeClass) Source.read?_namedLikeClass

/-- The constructor has no vertex of its own, and its creation leads to the method. -/
def namedLikeClassGraph : CallGraph where
  vertices := [⟨⟨2⟩, .method, "A()", some "A"⟩]
  bySignature := ⟨[("A()", [⟨⟨2⟩, .method, "A()", some "A"⟩])]⟩
  links := [⟨⟨2⟩, ⟨2⟩, { kind := .objectCreation, call := ⟨4⟩, point := ⟨0, ⟨2⟩, ⟨3⟩⟩ }⟩]
  reports := [⟨⟨4⟩, .objectCreation, some ⟨2⟩, .linked 1⟩]
  built := true

theorem grown_namedLikeClass (hash : String) : (namedLikeClass hash).Grown := by
  unfold namedLikeClass
  repeat' constructor

theorem built_namedLikeClass (hash : String) :
    build (.reference (namedLikeClass hash) {}) empty (namedLikeClass hash).units =
      (namedLikeClassGraph, .ok ()) := by
  have forest := (grown_namedLikeClass hash).forest
  have present : ∀ u ∈ (namedLikeClass hash).units, (namedLikeClass hash).has u :=
    fun _ unit => (forest.mem_units.mp unit).1
  rw [build_eq (s := .reference (namedLikeClass hash) {}) forest rfl present]
  cbv

/-- In a program that is loaded from a text, a creation ends at a vertex of a method. -/
theorem creation_ends_at_method :
    ∃ p g, Program.ofSources [.namedLikeClass] = .ok p ∧
      build (.reference p {}) empty p.units = (g, .ok ()) ∧
      ∃ l ∈ g.links, l.edge.kind = .objectCreation ∧
        ∃ v ∈ g.vertices, v.declaration = l.target ∧ v.kind = .method := by
  obtain ⟨hash, loaded⟩ := ofSources_namedLikeClass
  refine ⟨_, _, loaded, built_namedLikeClass hash, ?_⟩
  decide

/-- The method displaces the constructor. -/
theorem edge_kinds_agree_unless_displaced_namedLikeClass :
    ∃ p, Program.ofSources [.namedLikeClass] = .ok p ∧ p.Displaces .constructor ⟨2⟩ := by
  obtain ⟨hash, loaded⟩ := ofSources_namedLikeClass
  have reached : Reached (.reference (namedLikeClass hash) {})
      (build (.reference (namedLikeClass hash) {}) empty (namedLikeClass hash).units).1 :=
    .build _ .empty
  rw [built_namedLikeClass] at reached
  have ends := edge_kinds_agree_unless_displaced (grown_namedLikeClass hash) reached _
    List.mem_cons_self
  refine ⟨_, loaded, ?_⟩
  obtain ⟨v, listed, -, agrees | displaces⟩ := ends
  · rw [List.mem_singleton.mp listed] at agrees
    cases agrees
  · exact displaces

end CallGraph

end JavaCallGraph
