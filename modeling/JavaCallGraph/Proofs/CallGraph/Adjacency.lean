import JavaCallGraph.CallGraph.Query
import JavaCallGraph.Proofs.CallGraph.Enrolment
import JavaCallGraph.Proofs.CallGraph.Lasting
import Mathlib

/-!
Links and the vertices they join.

A link names the declarations of two vertices, and looking such a declaration up leads back to its
vertex. So every link leaves one vertex and enters one, and a question about a declaration is
answered from the links of its vertex, in the order in which they were added.
-/

namespace JavaCallGraph.CallGraph

variable {p : Program} {s : Basis} {g : CallGraph}

/-- No two vertices are the same, and links join vertices. -/
structure Wired (p : Program) (g : CallGraph) : Prop where
  enrolled : ∃ callables, Enrolled p callables g
  source : ∀ l ∈ g.links, l.source ∈ g.vertices.map (·.declaration)
  target : ∀ l ∈ g.links, l.target ∈ g.vertices.map (·.declaration)

theorem enroll_frame (p : Program) (g : CallGraph) (d : NodeId) :
    (enroll p g d).links = g.links ∧ g.vertices ⊆ (enroll p g d).vertices := by
  unfold enroll
  split
  · exact ⟨rfl, List.subset_append_left _ _⟩
  · exact ⟨rfl, List.Subset.refl _⟩

theorem Wired.addLink (wired : Wired s.program g) {source target call : NodeId} {kind : CallKind}
    {link : Link} (made : linkOf s g source target kind call = .ok link) :
    Wired s.program (g.addLink link) := by
  obtain ⟨callables, enrolled⟩ := wired.enrolled
  obtain ⟨point, edge, caller, callee, -, -, leaves, enters, rfl⟩ := linkOf_eq_ok.mp made
  obtain ⟨tail, -⟩ := vertex?_spec enrolled.sound leaves
  obtain ⟨head, -⟩ := vertex?_spec enrolled.sound enters
  constructor
  case enrolled => exact ⟨callables, enrolled.of_same rfl rfl⟩
  case source =>
    exact List.forall_mem_append.mpr
      ⟨wired.source, List.forall_mem_singleton.mpr (List.mem_map_of_mem tail)⟩
  case target =>
    exact List.forall_mem_append.mpr
      ⟨wired.target, List.forall_mem_singleton.mpr (List.mem_map_of_mem head)⟩

theorem wired_lasting (s : Basis) : Lasting s (Wired s.program) where
  empty := ⟨⟨[], enrolled_empty s.program⟩, List.forall_mem_nil _, List.forall_mem_nil _⟩
  enroll := by
    rintro g d callable ⟨⟨callables, enrolled⟩, source, target⟩
    obtain ⟨links, older⟩ := enroll_frame s.program g d
    refine ⟨⟨_, enrolled.enroll callable⟩, ?_, ?_⟩
    · rw [links]
      exact fun l member => List.map_subset _ older (source l member)
    · rw [links]
      exact fun l member => List.map_subset _ older (target l member)
  addLink made wired := wired.addLink made
  addReport := by
    rintro g r ⟨⟨callables, enrolled⟩, source, target⟩
    exact ⟨⟨callables, enrolled.of_same rfl rfl⟩, source, target⟩
  complete := by
    rintro g ⟨⟨callables, enrolled⟩, source, target⟩
    exact ⟨⟨callables, enrolled.of_same rfl rfl⟩, source, target⟩

namespace Wired

variable (wired : Wired p g)

include wired

/-- The declaration of a vertex leads back to it. -/
theorem vertex_declaration {v : Vertex} (member : v ∈ g.vertices) :
    g.vertex p v.declaration = .ok v := by
  obtain ⟨callables, enrolled⟩ := wired.enrolled
  have stands : v.isFor p v.declaration := by simp [Vertex.isFor]
  cases found : g.vertex? p v.declaration with
  | none =>
    rw [vertex?_eq_scan enrolled.sound] at found
    exact absurd stands (List.find?_eq_none.mp found v member)
  | some w =>
    have listed : v ∈ [w] :=
      enrolled.filter_isFor found ▸ List.mem_filter.mpr ⟨member, stands⟩
    obtain rfl := List.mem_singleton.mp listed
    exact vertex_eq_ok.mpr found

theorem declarations_nodup : (g.vertices.map (·.declaration)).Nodup := by
  obtain ⟨callables, enrolled⟩ := wired.enrolled
  rw [List.Nodup, List.pairwise_map]
  refine enrolled.pairwise.imp fun {v w} apart same => apart ?_
  simp [Vertex.same, same]

theorem vertex_of_listed {d : NodeId} (listed : d ∈ g.vertices.map (·.declaration)) :
    ∃ v, g.vertex p d = .ok v ∧ v.declaration = d := by
  obtain ⟨v, member, rfl⟩ := List.mem_map.mp listed
  exact ⟨v, wired.vertex_declaration member, rfl⟩

theorem listed_of_vertex {d : NodeId} {v : Vertex} (found : g.vertex p d = .ok v) :
    v.declaration ∈ g.vertices.map (·.declaration) := by
  obtain ⟨callables, enrolled⟩ := wired.enrolled
  obtain ⟨member, -⟩ := vertex?_spec enrolled.sound (vertex_eq_ok.mp found)
  exact List.mem_map_of_mem member

end Wired

/-! ### Questions about one declaration -/

theorem edgesFrom_eq {d : NodeId} {v : Vertex} (found : g.vertex p d = .ok v) :
    g.edgesFrom p d = .ok (g.links.filter (·.source == v.declaration)) := by
  rw [edgesFrom, found]
  rfl

theorem edgesTo_eq {d : NodeId} {v : Vertex} (found : g.vertex p d = .ok v) :
    g.edgesTo p d = .ok (g.links.filter (·.target == v.declaration)) := by
  rw [edgesTo, found]
  rfl

/-- The links from one vertex to another. -/
def linksBetween (g : CallGraph) (v w : Vertex) : List Link :=
  g.links.filter fun l => l.source == v.declaration && l.target == w.declaration

theorem count_targets (g : CallGraph) (v w : Vertex) :
    ((g.links.filter (·.source == v.declaration)).map (·.target)).count w.declaration =
      (g.linksBetween v w).length := by
  rw [List.count, List.countP_map, List.countP_filter, linksBetween, List.countP_eq_length_filter]
  simp only [Function.comp, Bool.and_comm]

theorem count_sources (g : CallGraph) (v w : Vertex) :
    ((g.links.filter (·.target == w.declaration)).map (·.source)).count v.declaration =
      (g.linksBetween v w).length := by
  rw [List.count, List.countP_map, List.countP_filter, linksBetween, List.countP_eq_length_filter]
  rfl

/-- Dealt out by a key, a list is used up. -/
theorem flatMap_filter_perm {keys : List NodeId} (nodup : keys.Nodup) (key : Link → NodeId)
    {links : List Link} (covered : ∀ l ∈ links, key l ∈ keys) :
    (keys.flatMap fun k => links.filter (key · == k)).Perm links := by
  induction keys generalizing links with
  | nil =>
    have none : links = [] := List.eq_nil_iff_forall_not_mem.mpr fun l member =>
      absurd (covered l member) List.not_mem_nil
    simp [none]
  | cons k rest ih =>
    obtain ⟨new, nodup⟩ := List.nodup_cons.mp nodup
    have others : ∀ k' ∈ rest, links.filter (key · == k') =
        (links.filter fun l => !(key l == k)).filter (key · == k') := by
      intro k' later
      have apart : k' ≠ k := fun same => new (same ▸ later)
      rw [List.filter_filter]
      refine List.filter_congr fun l _ => ?_
      by_cases here : key l = k' <;> simp [here, apart]
    have left : ∀ l ∈ links.filter fun l => !(key l == k), key l ∈ rest := by
      intro l member
      obtain ⟨member, other⟩ := List.mem_filter.mp member
      exact (List.mem_cons.mp (covered l member)).resolve_left (by simpa using other)
    rw [List.flatMap_cons, List.flatMap_congr others]
    exact ((ih nodup left).append_left _).trans (List.filter_append_perm (key · == k) links)

/-! ### Callers and callees -/

/-- After any builds, a declaration is as often a callee of another as the other is its caller, once
for each link between their vertices. The calls, callees and edges of a declaration stand side by side
in the order in which the edges were added, and so do the calls, callers and edges that reach it. Every
edge joins two vertices that its ends lead back to, so the edges that leave the vertices are all edges,
each once. -/
theorem callers_converse_callees (reached : Reached s g) :
    (∀ a b v w, g.vertex s.program a = .ok v → g.vertex s.program b = .ok w →
      ∃ leaving entering,
        leaving = g.links.filter (·.source == v.declaration) ∧
        g.edgesFrom s.program a = .ok leaving ∧
        g.callsFrom s.program a = .ok (leaving.map (·.edge.call)) ∧
        g.calleesOf s.program a = .ok (leaving.map (·.target)) ∧
        entering = g.links.filter (·.target == w.declaration) ∧
        g.edgesTo s.program b = .ok entering ∧
        g.callsTo s.program b = .ok (entering.map (·.edge.call)) ∧
        g.callersOf s.program b = .ok (entering.map (·.source)) ∧
        (leaving.map (·.target)).count w.declaration = (g.linksBetween v w).length ∧
        (entering.map (·.source)).count v.declaration = (g.linksBetween v w).length) ∧
    (∀ l ∈ g.links,
      (∃ v, g.vertex s.program l.source = .ok v ∧ v.declaration = l.source) ∧
      ∃ w, g.vertex s.program l.target = .ok w ∧ w.declaration = l.target) ∧
    ∃ leaving : Vertex → List Link,
      (∀ v ∈ g.vertices, g.edgesFrom s.program v.declaration = .ok (leaving v)) ∧
      (g.vertices.flatMap leaving).Perm g.links ∧
      (g.vertices.map fun v => (leaving v).length).sum = g.stats.edges := by
  have wired : Wired s.program g := (wired_lasting s).reached reached
  refine ⟨fun a b v w foundA foundB => ?_, fun l member => ?_, ?_⟩
  · have leaves := edgesFrom_eq foundA
    have enters := edgesTo_eq foundB
    refine ⟨_, _, rfl, leaves, ?_, ?_, rfl, enters, ?_, ?_, count_targets g v w, count_sources g v w⟩
    · rw [callsFrom, leaves]
      rfl
    · rw [calleesOf, leaves]
      rfl
    · rw [callsTo, enters]
      rfl
    · rw [callersOf, enters]
      rfl
  · exact ⟨wired.vertex_of_listed (wired.source l member),
      wired.vertex_of_listed (wired.target l member)⟩
  · have dealt : (g.vertices.flatMap fun v => g.links.filter (·.source == v.declaration)).Perm
        g.links := by
      have perm := flatMap_filter_perm wired.declarations_nodup (·.source) wired.source
      rwa [List.flatMap_map] at perm
    refine ⟨fun v => g.links.filter (·.source == v.declaration),
      fun v member => edgesFrom_eq (wired.vertex_declaration member), dealt, ?_⟩
    rw [← List.length_flatMap, dealt.length_eq]
    rfl

/-- Three methods that call each other in turn, the second twice by the first, and the third also by
itself. -/
def roundTrip : Program :=
  Program.empty
    |>.addUnit { path := "K.java" }
    |>.append ⟨0⟩ (.type { kind := .classType, name := "K" }) .unknown
    |>.append ⟨1⟩ (.callable (.method "a")) .unknown
    |>.append ⟨1⟩ (.callable (.method "b")) .unknown
    |>.append ⟨1⟩ (.callable (.method "c")) .unknown
    |>.append ⟨2⟩ (.statement (.other "expression_statement")) .unknown
    |>.append ⟨5⟩ (.methodCall { name := "b" }) .unknown
    |>.append ⟨2⟩ (.statement (.other "expression_statement")) .unknown
    |>.append ⟨7⟩ (.methodCall { name := "b" }) .unknown
    |>.append ⟨3⟩ (.statement (.other "expression_statement")) .unknown
    |>.append ⟨9⟩ (.methodCall { name := "c" }) .unknown
    |>.append ⟨4⟩ (.statement (.other "expression_statement")) .unknown
    |>.append ⟨11⟩ (.methodCall { name := "a" }) .unknown
    |>.append ⟨4⟩ (.statement (.other "expression_statement")) .unknown
    |>.append ⟨13⟩ (.methodCall { name := "c" }) .unknown

theorem roundTrip_grown : roundTrip.Grown := by
  unfold roundTrip
  repeat' constructor

def roundTripGraph : CallGraph where
  vertices :=
    [⟨⟨2⟩, .method, "a()", some "K"⟩, ⟨⟨3⟩, .method, "b()", some "K"⟩,
      ⟨⟨4⟩, .method, "c()", some "K"⟩]
  bySignature :=
    ⟨[("a()", [⟨⟨2⟩, .method, "a()", some "K"⟩]), ("b()", [⟨⟨3⟩, .method, "b()", some "K"⟩]),
      ("c()", [⟨⟨4⟩, .method, "c()", some "K"⟩])]⟩
  links :=
    [⟨⟨2⟩, ⟨3⟩, { kind := .methodCall, call := ⟨6⟩, point := ⟨0, ⟨2⟩, ⟨5⟩⟩ }⟩,
      ⟨⟨2⟩, ⟨3⟩, { kind := .methodCall, call := ⟨8⟩, point := ⟨1, ⟨2⟩, ⟨7⟩⟩ }⟩,
      ⟨⟨3⟩, ⟨4⟩, { kind := .methodCall, call := ⟨10⟩, point := ⟨2, ⟨3⟩, ⟨9⟩⟩ }⟩,
      ⟨⟨4⟩, ⟨2⟩, { kind := .methodCall, call := ⟨12⟩, point := ⟨3, ⟨4⟩, ⟨11⟩⟩ }⟩,
      ⟨⟨4⟩, ⟨4⟩, { kind := .methodCall, call := ⟨14⟩, point := ⟨4, ⟨4⟩, ⟨13⟩⟩ }⟩]
  reports :=
    [⟨⟨6⟩, .methodCall, some ⟨2⟩, .linked 1⟩, ⟨⟨8⟩, .methodCall, some ⟨2⟩, .linked 1⟩,
      ⟨⟨10⟩, .methodCall, some ⟨3⟩, .linked 1⟩, ⟨⟨12⟩, .methodCall, some ⟨4⟩, .linked 1⟩,
      ⟨⟨14⟩, .methodCall, some ⟨4⟩, .linked 1⟩]
  built := true

theorem roundTrip_built :
    build (.reference roundTrip {}) empty roundTrip.units = (roundTripGraph, .ok ()) := by
  rw [build_eq roundTrip_grown.forest rfl (by decide)]
  cbv

theorem roundTrip_reached : Reached (.reference roundTrip {}) roundTripGraph := by
  have reached : Reached (.reference roundTrip {})
      (build (.reference roundTrip {}) empty roundTrip.units).1 := .build _ .empty
  rwa [roundTrip_built] at reached

/-- The first method calls the second by two edges. -/
theorem callers_converse_callees_roundTrip :
    build (.reference roundTrip {}) empty roundTrip.units = (roundTripGraph, .ok ()) ∧
      roundTripGraph.calleesOf roundTrip ⟨2⟩ = .ok [⟨3⟩, ⟨3⟩] ∧
      roundTripGraph.callersOf roundTrip ⟨3⟩ = .ok [⟨2⟩, ⟨2⟩] ∧
      (roundTripGraph.linksBetween ⟨⟨2⟩, .method, "a()", some "K"⟩
        ⟨⟨3⟩, .method, "b()", some "K"⟩).length = 2 := by
  have foundA : roundTripGraph.vertex roundTrip ⟨2⟩ = .ok ⟨⟨2⟩, .method, "a()", some "K"⟩ := rfl
  have foundB : roundTripGraph.vertex roundTrip ⟨3⟩ = .ok ⟨⟨3⟩, .method, "b()", some "K"⟩ := rfl
  obtain ⟨pairs, -, -⟩ := callers_converse_callees roundTrip_reached
  obtain ⟨leaving, entering, rfl, -, -, callees, rfl, -, -, callers, counted, -⟩ :=
    pairs ⟨2⟩ ⟨3⟩ _ _ foundA foundB
  exact ⟨roundTrip_built, callees, callers, counted.symm⟩

end JavaCallGraph.CallGraph
