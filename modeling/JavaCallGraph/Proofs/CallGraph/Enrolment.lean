import JavaCallGraph.Proofs.CallGraph.Builds
import JavaCallGraph.Proofs.CallGraph.Distinct
import Mathlib

/-!
Which declarations have a vertex, after any builds.

The units that builds were carried out for list their callables in visiting order. The vertices are
the first of every group of equal callables in that list, in its order. `Enrolled` says so and is
kept by every enrolment. Uniqueness, the answers of look-ups and their independence of the index all
follow from it, because identity of vertices, a vertex standing for a declaration and identity of
declarations are one relation.
-/

namespace JavaCallGraph

namespace Program

variable {p : Program}

/-- The callables at or below some nodes, in visiting order. -/
def callablesUnder (p : Program) (roots : List NodeId) : List NodeId :=
  (p.allUnder roots).filter p.isCallable

theorem callablesUnder_append (first second : List NodeId) :
    p.callablesUnder (first ++ second) = p.callablesUnder first ++ p.callablesUnder second := by
  simp only [callablesUnder, allUnder, List.flatMap_append, List.filter_append]

theorem isCallable_of_mem_callablesUnder {roots : List NodeId} {c : NodeId}
    (member : c ∈ p.callablesUnder roots) : p.isCallable c :=
  (List.mem_filter.mp member).2

theorem Forest.mem_callablesUnder (forest : p.Forest) {roots : List NodeId} {c : NodeId} :
    c ∈ p.callablesUnder roots ↔ ∃ u ∈ roots, p.contains u c ∧ p.isCallable c := by
  simp only [callablesUnder, allUnder, List.mem_filter, List.mem_flatMap, forest.contains_iff]
  constructor
  · rintro ⟨⟨u, root, below⟩, callable⟩
    exact ⟨u, root, below, callable⟩
  · rintro ⟨u, root, below, callable⟩
    exact ⟨⟨u, root, below⟩, callable⟩

end Program

variable {p : Program}

theorem Vertex.same_eq {v w : Vertex} (made : Vertex.of p v.declaration = .ok v)
    (made' : Vertex.of p w.declaration = .ok w) :
    v.same w = p.sameDeclaration v.declaration w.declaration := by
  have owner := (Vertex.of_eq_ok.mp made).2.1
  have owner' := (Vertex.of_eq_ok.mp made').2.1
  rw [Vertex.same, Program.sameDeclaration, Vertex.signature?_of made, Vertex.signature?_of made',
    ← owner, ← owner', Option.isSome_some, Bool.true_and]
  rfl

namespace CallGraph

variable {g g' : CallGraph}

/-! ### Look-up without the index -/

theorem isFor_of_not_callable {v : Vertex} {d : NodeId} (made : Vertex.of p v.declaration = .ok v)
    (noCallable : p.signature? d = none) : v.isFor p d = false := by
  have signed := Vertex.signature?_of made
  have apart : v.declaration ≠ d := by
    rintro rfl
    rw [noCallable] at signed
    cases signed
  simp [Vertex.isFor, noCallable, apart]

theorem vertex_of_not_callable {d : NodeId} (noCallable : ¬p.isCallable d) :
    g.vertex p d = .error (.vertexNotFound (p.describe d)) := by
  have unsigned : p.signature? d = none := by
    simpa [Program.isCallable, Program.signature?] using noCallable
  simp [vertex, vertex?, unsigned]

/-- The index by signature answers as a scan of all vertices does. -/
theorem vertex?_eq_scan (sound : Sound p g) (d : NodeId) :
    g.vertex? p d = g.vertices.find? (·.isFor p d) := by
  unfold vertex?
  cases signed : p.signature? d with
  | none =>
    refine (List.find?_eq_none.mpr fun v member => ?_).symm
    simp [isFor_of_not_callable (sound.vertex v member) signed]
  | some signature =>
    simp only [Option.bind_eq_bind, Option.bind_some, sound.bucket, List.find?_filter]
    refine List.find?_congr fun v member => ?_
    by_cases same : v.signature = signature
    · simp [same]
    · -- a vertex outside the bucket does not stand for `d`
      have apart : v.declaration ≠ d := by
        rintro rfl
        exact same (Option.some.inj ((Vertex.signature?_of (sound.vertex v member)).symm.trans signed))
      simp [same, Vertex.isFor, signed, apart, Ne.symm same]

theorem declaration_vertex? (sound : Sound p g) (d : NodeId) :
    (g.vertex? p d).map (·.declaration) =
      (g.vertices.map (·.declaration)).find? (p.sameDeclaration · d) := by
  rw [vertex?_eq_scan sound, List.find?_map]
  congr 1
  exact List.find?_congr fun v member => Vertex.isFor_eq (sound.vertex v member) d

/-- A vertex that is found stays the answer when others join. -/
theorem vertex?_of_prefix (sound : Sound p g) (sound' : Sound p g')
    (older : g.vertices <+: g'.vertices) {d : NodeId} {v : Vertex}
    (found : g.vertex? p d = some v) : g'.vertex? p d = some v := by
  obtain ⟨joined, split⟩ := older
  rw [vertex?_eq_scan sound] at found
  rw [vertex?_eq_scan sound', ← split, List.find?_append, found]
  rfl

theorem Sound.vertices_eq (sound : Sound p g) (sound' : Sound p g')
    (same : g.vertices.map (·.declaration) = g'.vertices.map (·.declaration)) :
    g.vertices = g'.vertices := by
  have remade : ∀ {g : CallGraph}, Sound p g →
      g.vertices.map Except.ok = (g.vertices.map (·.declaration)).map (Vertex.of p) := by
    intro g sound
    rw [List.map_map]
    exact List.map_congr_left fun v member => (sound.vertex v member).symm
  have equal := (remade sound).trans ((congrArg _ same).trans (remade sound').symm)
  exact List.map_injective_iff.mpr (fun _ _ => Except.ok.inj) equal

/-! ### Enrolment -/

/-- The vertices of a graph are the first of every group of equal callables. -/
structure Enrolled (p : Program) (callables : List NodeId) (g : CallGraph) : Prop where
  sound : Sound p g
  index : g.bySignature = Index.ofPairs (g.vertices.map fun v => (v.signature, v))
  declarations : g.vertices.map (·.declaration) = distinct p [] callables

theorem enrolled_empty (p : Program) : Enrolled p [] empty where
  sound := sound_empty p
  index := rfl
  declarations := rfl

theorem Enrolled.of_same {callables : List NodeId} (enrolled : Enrolled p callables g)
    (vertices : g'.vertices = g.vertices) (index : g'.bySignature = g.bySignature) :
    Enrolled p callables g' where
  sound := ⟨vertices ▸ enrolled.sound.vertex, by rw [vertices, index]; exact enrolled.sound.bucket⟩
  index := by rw [vertices, index]; exact enrolled.index
  declarations := by rw [vertices]; exact enrolled.declarations

theorem vertex?_isSome_eq (sound : Sound p g) (d : NodeId) :
    (g.vertex? p d).isSome = (g.vertices.map (·.declaration)).any (p.sameDeclaration · d) := by
  rw [← Option.isSome_map, declaration_vertex? sound, Bool.eq_iff_iff, List.find?_isSome,
    List.any_eq_true]

theorem Enrolled.enroll {callables : List NodeId} (enrolled : Enrolled p callables g) {d : NodeId}
    (callable : p.isCallable d) : Enrolled p (callables ++ [d]) (enroll p g d) := by
  obtain ⟨decl, read⟩ := Option.isSome_iff_exists.mp callable
  have known := vertex?_isSome_eq enrolled.sound d
  have sound := enrolled.sound.enroll d
  rw [enrolled.declarations] at known
  unfold CallGraph.enroll at sound ⊢
  cases found : g.vertex? p d with
  | some v =>
    simp only [found, Option.isSome_some] at known
    simp only [found] at sound ⊢
    refine ⟨sound, enrolled.index, ?_⟩
    rw [enrolled.declarations, distinct_append, distinct, if_pos known.symm]
    rfl
  | none =>
    simp only [found, Option.isSome_none] at known
    simp only [found, Vertex.of, read] at sound ⊢
    refine ⟨sound, ?_, ?_⟩
    · simp only [addVertex, List.map_append, enrolled.index, Index.ofPairs, Index.insertAll,
        List.foldl_append]
      rfl
    · simp only [addVertex, List.map_append, enrolled.declarations, distinct_append]
      rw [distinct, if_neg (by simp [← known])]
      rfl

theorem Enrolled.enrollAll {callables more : List NodeId} (enrolled : Enrolled p callables g)
    (callable : ∀ d ∈ more, p.isCallable d) :
    Enrolled p (callables ++ more) (more.foldl (CallGraph.enroll p) g) := by
  induction more generalizing callables g with
  | nil => simpa using enrolled
  | cons d rest ih =>
    have first := enrolled.enroll (callable d List.mem_cons_self)
    have later := ih first fun c member => callable c (List.mem_cons_of_mem _ member)
    rwa [List.append_assoc] at later

theorem Enrolled.addVertices {callables : List NodeId} (enrolled : Enrolled p callables g)
    (units : List NodeId) :
    Enrolled p (callables ++ p.callablesUnder units) (addVertices p g units) :=
  enrolled.enrollAll fun _ => Program.isCallable_of_mem_callablesUnder

/-! ### What an enrolled graph answers -/

section

variable {callables : List NodeId} (enrolled : Enrolled p callables g)

include enrolled

theorem Enrolled.pairwise : g.vertices.Pairwise fun v w => ¬v.same w := by
  have apart : Apart p (distinct p [] callables) := Apart.distinct List.Pairwise.nil callables
  rw [Apart, ← enrolled.declarations, List.pairwise_map] at apart
  refine apart.imp_of_mem fun {v w} member member' different => ?_
  rwa [Vertex.same_eq (enrolled.sound.vertex v member) (enrolled.sound.vertex w member')]

theorem Enrolled.declaration_vertex? (d : NodeId) :
    (g.vertex? p d).map (·.declaration) = callables.find? (p.sameDeclaration · d) := by
  have even : ∀ a b, p.sameDeclaration a b → p.sameDeclaration a d = p.sameDeclaration b d := by
    intro a b same
    rw [Bool.eq_iff_iff]
    exact ⟨Program.sameDeclaration_trans (Program.sameDeclaration_symm same),
      Program.sameDeclaration_trans same⟩
  rw [CallGraph.declaration_vertex? enrolled.sound, enrolled.declarations, find?_distinct even,
    List.nil_append]

theorem Enrolled.vertex?_isSome (d : NodeId) :
    (g.vertex? p d).isSome ↔ ∃ c ∈ callables, p.sameDeclaration c d := by
  rw [← Option.isSome_map, enrolled.declaration_vertex?, List.find?_isSome]

theorem Enrolled.filter_isFor {d : NodeId} {v : Vertex} (found : g.vertex? p d = some v) :
    g.vertices.filter (·.isFor p d) = [v] := by
  rw [vertex?_eq_scan enrolled.sound, List.find?_eq_some_iff_append] at found
  obtain ⟨stands, before, after, split, early⟩ := found
  have pairwise := enrolled.pairwise
  rw [split, List.pairwise_append, List.pairwise_cons] at pairwise
  have late : ∀ w ∈ after, ¬w.isFor p d := by
    intro w later standsToo
    have made := enrolled.sound.vertex v (by simp [split])
    have made' := enrolled.sound.vertex w (by simp [split, later])
    rw [Vertex.isFor_eq made] at stands
    rw [Vertex.isFor_eq made'] at standsToo
    refine pairwise.2.1.1 w later ?_
    rw [Vertex.same_eq made made']
    exact Program.sameDeclaration_trans stands (Program.sameDeclaration_symm standsToo)
  rw [split, List.filter_append, List.filter_cons, if_pos stands,
    List.filter_eq_nil_iff.mpr late, List.filter_eq_nil_iff.mpr (by simpa using early)]
  rfl

end

/-! ### Any number of builds -/

variable {s : Basis}

theorem Pass.enrolled {places : List (NodeId × Walk.Scope)} {result : Except Error Unit}
    (pass : Pass s g places (g', result)) {callables : List NodeId}
    (enrolled : Enrolled p callables g) : Enrolled p callables g' := by
  cases pass with
  | done _ => exact enrolled.of_same rfl rfl
  | stopped _ _ _ _ => exact enrolled.of_same rfl rfl

/-- The units that a build is carried out for: all of them, if the graph is not built yet and each is
a node, and otherwise none. -/
def executed (s : Basis) (g : CallGraph) (units : List NodeId) : List NodeId :=
  if g.built = false ∧ ∀ u ∈ units, s.program.has u then units else []

theorem build_idle {units : List NodeId}
    (idle : ¬(g.built = false ∧ ∀ u ∈ units, s.program.has u)) : (build s g units).1 = g := by
  unfold build
  split
  · rfl
  · next fresh =>
    split
    · rfl
    · next all =>
      have present : ∀ u ∈ units, s.program.has u := by simpa using all
      exact absurd ⟨by simpa using fresh, present⟩ idle

theorem build_enrols (forest : s.program.Forest) {callables : List NodeId}
    (enrolled : Enrolled s.program callables g) (units : List NodeId) :
    Enrolled s.program (callables ++ s.program.callablesUnder (executed s g units))
      (build s g units).1 := by
  unfold executed
  split
  · next carriedOut =>
    obtain ⟨fresh, present⟩ := carriedOut
    have visited : ∀ place ∈ sites s units, s.program.has place.1 :=
      Walk.has_of_visited forest present
    have pass := pass_of_inTurn (g := CallGraph.addVertices s.program g units) visited
    rw [build_eq forest fresh present]
    split
    · next g' walked =>
      rw [walked] at pass
      have kept := pass.enrolled (enrolled.addVertices units)
      exact kept.of_same rfl rfl
    · next g' e walked =>
      rw [walked] at pass
      exact pass.enrolled (enrolled.addVertices units)
  · next idle =>
    rw [build_idle idle, show s.program.callablesUnder [] = [] from rfl, List.append_nil]
    exact enrolled

/-- The graphs that builds lead to, with all the units that they were carried out for, in order. -/
inductive ReachedBy (s : Basis) : List NodeId → CallGraph → Prop where
  | empty : ReachedBy s [] empty
  | build {handed : List NodeId} {g : CallGraph} (units : List NodeId) :
      ReachedBy s handed g → ReachedBy s (handed ++ executed s g units) (build s g units).1

theorem ReachedBy.enrolled (forest : s.program.Forest) {handed : List NodeId}
    (reached : ReachedBy s handed g) :
    Enrolled s.program (s.program.callablesUnder handed) g := by
  induction reached with
  | empty => exact enrolled_empty s.program
  | build units _ ih =>
    rw [Program.callablesUnder_append]
    exact build_enrols forest ih units

/-- After any builds no two vertices are the same. A declaration has a vertex exactly when it counts
as the same as a callable below a unit that a build was carried out for. Its vertex is the only one
that stands for it, is made from the first such callable in visiting order, and is what a scan of all
vertices finds. A node that is no callable has none. -/
theorem vertices_unique_and_found (grown : s.program.Grown) {handed : List NodeId}
    (reached : ReachedBy s handed g) :
    (g.vertices.Pairwise fun v w => ¬v.same w) ∧
      (∀ d, (∃ v, g.vertex s.program d = .ok v) ↔
        ∃ u ∈ handed, ∃ c, s.program.contains u c ∧ s.program.isCallable c ∧
          s.program.sameDeclaration c d) ∧
      (∀ d v, g.vertex s.program d = .ok v →
        g.vertices.filter (·.isFor s.program d) = [v] ∧
          (s.program.callablesUnder handed).find? (s.program.sameDeclaration · d) =
            some v.declaration) ∧
      (∀ d, g.vertex? s.program d = g.vertices.find? (·.isFor s.program d)) ∧
      ∀ d, ¬s.program.isCallable d →
        g.vertex s.program d = .error (.vertexNotFound (s.program.describe d)) := by
  have enrolled := reached.enrolled grown.forest
  refine ⟨enrolled.pairwise, fun d => ?_, fun d v found => ?_, vertex?_eq_scan enrolled.sound,
    fun _ => vertex_of_not_callable⟩
  · calc (∃ v, g.vertex s.program d = .ok v)
      _ ↔ (g.vertex? s.program d).isSome := by simp only [vertex_eq_ok, Option.isSome_iff_exists]
      _ ↔ ∃ c ∈ s.program.callablesUnder handed, s.program.sameDeclaration c d :=
        enrolled.vertex?_isSome d
      _ ↔ _ := by
        simp only [grown.forest.mem_callablesUnder]
        constructor
        · rintro ⟨c, ⟨u, unit, below, callable⟩, same⟩
          exact ⟨u, unit, c, below, callable, same⟩
        · rintro ⟨u, unit, c, below, callable, same⟩
          exact ⟨c, ⟨u, unit, below, callable⟩, same⟩
  · rw [vertex_eq_ok] at found
    refine ⟨enrolled.filter_isFor found, ?_⟩
    rw [← enrolled.declaration_vertex?, found]
    rfl

/-- A method that calls itself, a call outside any type, and a second view of the method's file. -/
def interrupted : Program :=
  Program.empty
    |>.addUnit { path := "A.java" }
    |>.append ⟨0⟩ (.type { kind := .classType, name := "A" }) .unknown
    |>.append ⟨1⟩ (.callable (.method "m")) .unknown
    |>.append ⟨2⟩ (.statement (.other "expression_statement")) .unknown
    |>.append ⟨3⟩ (.methodCall { name := "m", scope := .implicit }) .unknown
    |>.addUnit { path := "B.java" }
    |>.append ⟨5⟩ (.methodCall { name := "m", scope := .implicit }) .unknown
    |>.addUnit { path := "A.java" }
    |>.append ⟨7⟩ (.type { kind := .classType, name := "A" }) .unknown
    |>.append ⟨8⟩ (.callable (.method "m")) .unknown

theorem interrupted_grown : interrupted.Grown := by
  unfold interrupted
  repeat' constructor

/-- What a build of the first two units leaves behind: the call outside any type ends it. -/
def interruptedGraph : CallGraph where
  vertices := [⟨⟨2⟩, .method, "m()", some "A"⟩]
  bySignature := ⟨[("m()", [⟨⟨2⟩, .method, "m()", some "A"⟩])]⟩
  links := [⟨⟨2⟩, ⟨2⟩, { kind := .methodCall, call := ⟨4⟩, point := ⟨0, ⟨2⟩, ⟨3⟩⟩ }⟩]
  reports := [⟨⟨4⟩, .methodCall, some ⟨2⟩, .linked 1⟩]

theorem interrupted_failed :
    build (.reference interrupted {}) empty [⟨0⟩, ⟨5⟩] =
      (interruptedGraph,
        .error (.illegalState "Call m(..)@0 is outside of any type or callable declaration")) := by
  rw [build_eq interrupted_grown.forest rfl (by decide)]
  cbv

theorem interrupted_resumed :
    build (.reference interrupted {}) interruptedGraph [⟨7⟩] =
      ({ interruptedGraph with built := true }, .ok ()) := by
  rw [build_eq interrupted_grown.forest rfl (by decide)]
  cbv

/-- The method in the second view has the vertex of the method in the first. -/
theorem vertices_unique_and_found_interrupted :
    let g := { interruptedGraph with built := true }
    let v : Vertex := ⟨⟨2⟩, .method, "m()", some "A"⟩
    ReachedBy (.reference interrupted {}) [⟨0⟩, ⟨5⟩, ⟨7⟩] g ∧ g.vertex interrupted ⟨9⟩ = .ok v ∧
      g.vertices.filter (·.isFor interrupted ⟨9⟩) = [v] ∧
        (interrupted.callablesUnder [⟨0⟩, ⟨5⟩, ⟨7⟩]).find? (interrupted.sameDeclaration · ⟨9⟩) =
          some ⟨2⟩ := by
  intro g v
  have failed : ReachedBy (.reference interrupted {}) [⟨0⟩, ⟨5⟩]
      (build (.reference interrupted {}) empty [⟨0⟩, ⟨5⟩]).1 := .build [⟨0⟩, ⟨5⟩] .empty
  rw [interrupted_failed] at failed
  have resumed : ReachedBy (.reference interrupted {}) [⟨0⟩, ⟨5⟩, ⟨7⟩]
      (build (.reference interrupted {}) interruptedGraph [⟨7⟩]).1 := failed.build [⟨7⟩]
  rw [interrupted_resumed] at resumed
  have found : g.vertex interrupted ⟨9⟩ = .ok v := by cbv
  exact ⟨resumed, found, (vertices_unique_and_found interrupted_grown resumed).2.2.1 ⟨9⟩ v found⟩

end CallGraph

end JavaCallGraph
