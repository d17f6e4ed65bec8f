import JavaCallGraph.Proofs.CallGraph.Views
import JavaCallGraph.Proofs.Java.CallsKept
import JavaCallGraph.Proofs.Java.Conformity
import JavaCallGraph.Proofs.Java.Positions
import JavaCallGraph.Proofs.Java.Sightings

/-!
Calls are told apart by their places.

A call graph looks up the edges of a call by file, span and label. Of two calls in a text, one lies
behind the other or inside it and is smaller, so they never share a span; calls of different texts
differ in their paths. Comparing places is then comparing calls, and the targets of a call are those
of its own edges.
-/

namespace JavaCallGraph

/-! ### Calls in trees that are strewn -/

namespace Java

/-- Two calls at different places. -/
def Aside (x y : CallKind × Span) : Prop := x.2 ≠ y.2

namespace Strewn

variable {lo hi : Nat} {trees : List Syntax}

/-- Calls lie between the bytes that the trees lie between. -/
theorem calls_between (strewn : Strewn lo trees hi) :
    ∀ x ∈ trees.flatMap Syntax.calls,
      lo ≤ x.2.startByte ∧ x.2.startByte < x.2.endByte ∧ x.2.endByte ≤ hi := by
  induction strewn with
  | nil => exact List.forall_mem_nil _
  | @cons lo hi kind field isNamed extent children trees above proper below _ _ inside later =>
    rw [List.flatMap_cons, List.forall_mem_append, Syntax.calls_eq, List.forall_mem_append]
    refine ⟨⟨fun x own => ?_, fun x member => ?_⟩, fun x member => ?_⟩
    · obtain ⟨k, -, rfl⟩ := Option.map_eq_some_iff.mp (Option.mem_toList.mp own)
      exact ⟨above, proper, below⟩
    · obtain ⟨first, nonempty, last⟩ := inside x member
      exact ⟨Nat.le_trans above first, nonempty, Nat.le_trans last below⟩
    · obtain ⟨first, nonempty, last⟩ := later x member
      exact ⟨Nat.le_trans above (Nat.le_trans (Nat.le_of_lt proper) first), nonempty, last⟩

/-- Among two or more trees no call reaches from the first byte to the last. -/
theorem calls_narrow (strewn : Strewn lo trees hi) (several : 2 ≤ trees.length) :
    ∀ x ∈ trees.flatMap Syntax.calls, x.2.startByte ≠ lo ∨ x.2.endByte ≠ hi := by
  match trees with
  | t :: u :: rest =>
    obtain ⟨alone, -, behind⟩ := strewn.of_cons
    obtain ⟨above, proper, -, -⟩ := Strewn.singleton_iff.mp alone
    obtain ⟨next, within, -⟩ := behind.of_cons
    obtain ⟨apart, nonempty, -, -⟩ := Strewn.singleton_iff.mp next
    rw [List.flatMap_cons, List.forall_mem_append]
    refine ⟨fun x member => .inr ?_, fun x member => .inl ?_⟩
    · obtain ⟨-, -, last⟩ := alone.calls_between x (by rwa [List.flatMap_singleton])
      omega
    · obtain ⟨first, -, -⟩ := behind.calls_between x member
      omega

/-- The calls in trees are at different places, if every call has two children. -/
theorem calls_apart {types : NodeTypes} (strewn : Strewn lo trees hi)
    (regular : ∀ t ∈ trees, t.everywhere (Syntax.isRegular types)) :
    (trees.flatMap Syntax.calls).Pairwise Aside := by
  induction strewn with
  | nil => exact .nil
  | @cons lo hi kind field isNamed extent children trees above proper below inside behind here later =>
    obtain ⟨first, rest⟩ := List.forall_mem_cons.mp regular
    obtain ⟨own, below⟩ := Syntax.everywhere_iff.mp first
    have alone : Strewn lo [.node kind field isNamed extent children] extent.stop.byte :=
      .cons above proper (Nat.le_refl _) inside .nil
    rw [List.flatMap_cons, List.pairwise_append]
    refine ⟨?_, later rest, fun x inFirst y inRest same => ?_⟩
    · rw [Syntax.calls_eq, List.pairwise_append]
      refine ⟨?_, here below, fun x isOwn y member same => ?_⟩
      · rw [Syntax.ownCall]
        cases callKinds.lookup _ <;> simp
      · -- a call is larger than each of its children
        obtain ⟨k, isCall, rfl⟩ := Option.map_eq_some_iff.mp (Option.mem_toList.mp isOwn)
        have several : 2 ≤ children.length := by
          simp only [Syntax.isRegular, Bool.and_eq_true, Bool.or_eq_true, decide_eq_true_eq] at own
          exact own.1.2.resolve_left (by simp [isCall])
        rcases inside.calls_narrow several y member with starts | ends
        · exact starts (congrArg Span.startByte same).symm
        · exact ends (congrArg Span.endByte same).symm
    · obtain ⟨-, nonempty, last⟩ := alone.calls_between x (by rwa [List.flatMap_singleton])
      obtain ⟨first, -, -⟩ := behind.calls_between y inRest
      have starts := congrArg Span.startByte same
      omega

end Strewn

theorem Syntax.calls_apart_of_read? {text : String} {root : Syntax} (read : read? text = some root) :
    root.calls.Pairwise Aside := by
  obtain ⟨file, -, regular⟩ := isRegular_of_read? Grammar.agrees_tables read
  rw [calls_eq, Located.ownCall_eq_nil (n := { node := root })]
  · exact (strewn_of_read? read).calls_apart regular
  · rw [Located.kind, file]
    rfl

/-- The calls of a file alone are those of the tree that are kept, and differ in their spans. -/
theorem calls_lowerSource_apart {text : String} {root : Syntax}
    (read : Syntax.read? text = some root) (path : String) (origin : UnitOrigin)
    (contentHash : String) :
    ((lowerSource .empty path origin contentHash text root).sightings.map fun seen =>
      (seen.kind, seen.span)).Pairwise Aside := by
  let q := lowerSource .empty path origin contentHash text root
  obtain ⟨file, grammatical⟩ := Syntax.fitsGrammar_of_read? read
  obtain ⟨lost, -, perm⟩ := accounts_fileSketches text.toList file grammatical
  have symmetric : ∀ {x y : CallKind × Span}, Aside x y → Aside y x := Ne.symm
  have kept := List.pairwise_append.mp
    ((perm.pairwise_iff symmetric).mp (Syntax.calls_apart_of_read? read))
  have shown : q.sightings.map (fun seen => (seen.kind, seen.span)) =
      Sketch.calls (fileSketches text.toList root) := by
    rw [← calls_lowerSource .empty path origin contentHash, Program.descendants_lowerSource,
      Program.sightings, Program.ids, List.map_filterMap, List.range_eq_range']
    refine List.filterMap_congr fun x _ => ?_
    rw [Program.sighting?, Program.callAt?, Option.map_map]
    rfl
  rw [shown]
  exact kept.1

end Java

/-! ### Places of calls -/

/-- Two calls that differ in their file or in their span. -/
def Sighting.Apart (x y : Sighting) : Prop := x.path = y.path → x.span ≠ y.span

theorem Sighting.Apart.symm {x y : Sighting} (apart : x.Apart y) : y.Apart x :=
  fun paths spans => apart paths.symm spans.symm

namespace Source

variable {s : Source}

theorem path_of_mem_sightings {parse : Java.Parser} {seen : Sighting}
    (member : seen ∈ s.sightings parse) : seen.path = some s.path := by
  unfold sightings at member
  split at member
  · obtain ⟨x, -, shown⟩ := List.mem_filterMap.mp member
    obtain ⟨kind, isCall, rfl⟩ := Option.map_eq_some_iff.mp shown
    exact Java.pathOf?_lowerSource (Program.has_of_callKind? isCall)
  · cases member

/-- The calls of one text differ in their spans. -/
theorem sightings_apart (s : Source) : (s.sightings Java.Syntax.read?).Pairwise Sighting.Apart := by
  unfold sightings
  split
  · next root read =>
    have apart := Java.calls_lowerSource_apart read s.path s.origin (Sha256.ofText s.text)
    refine (List.pairwise_map.mp apart).imp ?_
    exact fun apart _ => apart
  · exact .nil

end Source

namespace Program

variable {sources : List Source} {p : Program}

theorem sightings_apart (loaded : ofSources sources = .ok p)
    (distinct : (sources.map (·.path)).Nodup) : p.sightings.Pairwise Sighting.Apart := by
  rw [sightings_ofSourcesBy loaded]
  apply List.pairwise_flatMap.mpr
  refine ⟨fun s _ => s.sightings_apart, ?_⟩
  refine (List.pairwise_map.mp distinct).imp ?_
  intro s t differ x inFirst y inSecond paths
  rw [Source.path_of_mem_sightings inFirst, Source.path_of_mem_sightings inSecond] at paths
  exact absurd (Option.some.inj paths) differ

/-- Two calls of a loaded program are shown at different places. -/
theorem apart_of_ne (loaded : ofSources sources = .ok p) (distinct : (sources.map (·.path)).Nodup)
    {a b : NodeId} {x y : Sighting} (first : p.sighting? a = some x) (second : p.sighting? b = some y)
    (differ : a ≠ b) : x.Apart y := by
  have apart := List.pairwise_filterMap.mp (sightings_apart loaded distinct)
  have symmetric : Std.Symm fun a b : NodeId =>
      ∀ x, p.sighting? a = some x → ∀ y, p.sighting? b = some y → x.Apart y :=
    ⟨fun _ _ apart y second x first => (apart x first y second).symm⟩
  exact apart.forall (mem_ids_of_sighting? first) (mem_ids_of_sighting? second) differ
    x first y second

/-- Two calls of a loaded program that are at one place are one call. -/
theorem eq_of_sameRange (loaded : ofSources sources = .ok p)
    (distinct : (sources.map (·.path)).Nodup) {a b : NodeId} (first : (p.callKind? a).isSome)
    (second : (p.callKind? b).isSome) (same : p.sameRange a b) : a = b := by
  obtain ⟨kind, first⟩ := Option.isSome_iff_exists.mp first
  obtain ⟨kind', second⟩ := Option.isSome_iff_exists.mp second
  rcases sameRange_iff.mp same with rfl | ⟨-, spans, -, -, paths⟩
  · rfl
  · by_contra differ
    have apart := apart_of_ne loaded distinct (sighting?_of_call first) (sighting?_of_call second)
      differ
    exact apart paths spans

end Program

namespace CallGraph

variable {s : Basis} {g : CallGraph}

/-- The edges of a graph are made for calls. -/
theorem Reached.callKind? (forest : s.program.Forest) (reached : Reached s g) :
    ∀ l ∈ g.links, s.program.callKind? l.edge.call = some l.edge.kind := by
  induction reached with
  | empty =>
    intro l member
    cases member
  | @build g units _ ih =>
    intro l member
    rcases (build_step forest g units).mem_links member with old | ⟨_, _, kind, call, made⟩
    · exact ih l old
    · obtain ⟨point, edge, tail, head, -, built, -, -, rfl⟩ := linkOf_eq_ok.mp made
      obtain ⟨isCall, -, rfl⟩ := edge_of_eq_ok built
      exact isCall

/-- In a program that is loaded from texts with different paths no two calls are at one place, so
after any builds the targets of a call are those of the edges made for it, in their order. -/
theorem callTargets_of_own_edges {sources : List Source}
    (loaded : Program.ofSources sources = .ok s.program) (distinct : (sources.map (·.path)).Nodup) :
    (∀ a b, (s.program.callKind? a).isSome → (s.program.callKind? b).isSome →
      s.program.sameRange a b → a = b) ∧
    ∀ g, Reached s g → ∀ c, (s.program.callKind? c).isSome →
      g.callTargetsAt s.program c =
        .ok ((g.links.filter fun l => l.edge.call == c).map (·.target)) := by
  have forest : s.program.Forest := (Program.grown_ofSourcesBy loaded).forest
  refine ⟨fun a b => Program.eq_of_sameRange loaded distinct, fun g reached c isCall => ?_⟩
  have own : ∀ l ∈ g.links, s.program.sameRange l.edge.call c = (l.edge.call == c) := by
    intro l member
    have linked := Option.isSome_of_eq_some (reached.callKind? forest l member)
    rw [Bool.eq_iff_iff, beq_iff_eq]
    constructor
    · exact Program.eq_of_sameRange loaded distinct linked isCall
    · exact fun same => Program.sameRange_iff.mpr (.inl same)
  obtain ⟨kind, isCall⟩ := Option.isSome_iff_exists.mp isCall
  rw [callTargetsAt, Program.has_of_callKind? isCall, callTargets, List.filter_congr own]
  simp

end CallGraph

/-! ### A call on the result of a call -/

namespace Source

/-- The receiver of a call is a call that starts where the whole call starts. -/
def chainedCalls : Source where
  path := "A.java"
  text := "class A { A f() { return f().g(); } A g() { return this; } }"

def chainedCallsTree : Java.Syntax :=
  .node "program" none true ⟨⟨0, 0⟩, ⟨0, 60⟩⟩
    [.node "class_declaration" none true ⟨⟨0, 0⟩, ⟨0, 60⟩⟩
      [.node "identifier" (some "name") true ⟨⟨0, 6⟩, ⟨0, 7⟩⟩ [],
        .node "class_body" (some "body") true ⟨⟨0, 8⟩, ⟨0, 60⟩⟩
          [.node "method_declaration" none true ⟨⟨0, 10⟩, ⟨0, 35⟩⟩
            [.node "type_identifier" (some "type") true ⟨⟨0, 10⟩, ⟨0, 11⟩⟩ [],
              .node "identifier" (some "name") true ⟨⟨0, 12⟩, ⟨0, 13⟩⟩ [],
              .node "formal_parameters" (some "parameters") true ⟨⟨0, 13⟩, ⟨0, 15⟩⟩ [],
              .node "block" (some "body") true ⟨⟨0, 16⟩, ⟨0, 35⟩⟩
                [.node "return_statement" none true ⟨⟨0, 18⟩, ⟨0, 33⟩⟩
                  [.node "method_invocation" none true ⟨⟨0, 25⟩, ⟨0, 32⟩⟩
                    [.node "method_invocation" (some "object") true ⟨⟨0, 25⟩, ⟨0, 28⟩⟩
                      [.node "identifier" (some "name") true ⟨⟨0, 25⟩, ⟨0, 26⟩⟩ [],
                        .node "argument_list" (some "arguments") true ⟨⟨0, 26⟩, ⟨0, 28⟩⟩ []],
                      .node "identifier" (some "name") true ⟨⟨0, 29⟩, ⟨0, 30⟩⟩ [],
                      .node "argument_list" (some "arguments") true ⟨⟨0, 30⟩, ⟨0, 32⟩⟩ []]]]],
            .node "method_declaration" none true ⟨⟨0, 36⟩, ⟨0, 58⟩⟩
              [.node "type_identifier" (some "type") true ⟨⟨0, 36⟩, ⟨0, 37⟩⟩ [],
                .node "identifier" (some "name") true ⟨⟨0, 38⟩, ⟨0, 39⟩⟩ [],
                .node "formal_parameters" (some "parameters") true ⟨⟨0, 39⟩, ⟨0, 41⟩⟩ [],
                .node "block" (some "body") true ⟨⟨0, 42⟩, ⟨0, 58⟩⟩
                  [.node "return_statement" none true ⟨⟨0, 44⟩, ⟨0, 56⟩⟩
                    [.node "this" none true ⟨⟨0, 51⟩, ⟨0, 55⟩⟩ []]]]]]]

theorem read?_chainedCalls :
    Java.Syntax.read? "class A { A f() { return f().g(); } A g() { return this; } }" =
      some chainedCallsTree := by cbv

end Source

namespace CallGraph

def chainedCalls (hash : String) : Program :=
  Program.empty
    |>.addUnit { path := "A.java", contentHash := hash }
    |>.append ⟨0⟩ (.type { kind := .classType, name := "A" }) ⟨1, 1, 0, 60⟩
    |>.append ⟨1⟩ (.callable { kind := .method, name := "f", returnType := some "A" }) ⟨1, 1, 10, 35⟩
    |>.append ⟨2⟩ (.statement (.other "return_statement")) ⟨1, 1, 18, 33⟩
    |>.append ⟨3⟩ (.methodCall { name := "g" }) ⟨1, 1, 25, 32⟩
    |>.appendReceiver ⟨4⟩ (.methodCall { name := "f" }) ⟨1, 1, 25, 28⟩
    |>.append ⟨1⟩ (.callable { kind := .method, name := "g", returnType := some "A" }) ⟨1, 1, 36, 58⟩
    |>.append ⟨6⟩ (.statement (.other "return_statement")) ⟨1, 1, 44, 56⟩

theorem lowerSource_chainedCalls (hash : String) :
    Java.lowerSource .empty "A.java" .source hash
      "class A { A f() { return f().g(); } A g() { return this; } }" Source.chainedCallsTree =
      chainedCalls hash :=
  Java.lowerSource_eq_of_runFor 20 (by cbv)

theorem ofSources_chainedCalls :
    ∃ hash, Program.ofSources [.chainedCalls] = .ok (chainedCalls hash) := by
  refine ⟨Sha256.ofText Source.chainedCalls.text, ?_⟩
  rw [← lowerSource_chainedCalls]
  exact Program.ofSourcesBy_of_parse (s := .chainedCalls) Source.read?_chainedCalls

def chainedCallsGraph : CallGraph where
  vertices := [⟨⟨2⟩, .method, "f()", some "A"⟩, ⟨⟨6⟩, .method, "g()", some "A"⟩]
  bySignature := ⟨[("f()", [⟨⟨2⟩, .method, "f()", some "A"⟩]),
    ("g()", [⟨⟨6⟩, .method, "g()", some "A"⟩])]⟩
  links := [⟨⟨2⟩, ⟨6⟩, { kind := .methodCall, call := ⟨4⟩, point := ⟨0, ⟨2⟩, ⟨3⟩⟩ }⟩,
    ⟨⟨2⟩, ⟨2⟩, { kind := .methodCall, call := ⟨5⟩, point := ⟨0, ⟨2⟩, ⟨3⟩⟩ }⟩]
  reports := [⟨⟨4⟩, .methodCall, some ⟨2⟩, .linked 1⟩, ⟨⟨5⟩, .methodCall, some ⟨2⟩, .linked 1⟩]
  built := true

theorem grown_chainedCalls (hash : String) : (chainedCalls hash).Grown := by
  rw [← lowerSource_chainedCalls]
  exact Java.grown_lowerSource .empty

theorem built_chainedCalls (hash : String) :
    build (.reference (chainedCalls hash) {}) empty (chainedCalls hash).units =
      (chainedCallsGraph, .ok ()) := by
  have forest := (grown_chainedCalls hash).forest
  have present : ∀ u ∈ (chainedCalls hash).units, (chainedCalls hash).has u :=
    fun _ unit => (forest.mem_units.mp unit).1
  rw [build_eq (s := .reference (chainedCalls hash) {}) forest rfl present]
  cbv

/-- The calls in `f().g()` start at the same byte, and each has its own target. -/
theorem callTargets_of_own_edges_chainedCalls :
    ∃ p g, Program.ofSources [.chainedCalls] = .ok p ∧
      build (.reference p {}) empty p.units = (g, .ok ()) ∧
      (p.span ⟨4⟩).startByte = (p.span ⟨5⟩).startByte ∧ ¬ p.sameRange ⟨4⟩ ⟨5⟩ ∧
      g.callTargetsAt p ⟨4⟩ = .ok [⟨6⟩] ∧ g.callTargetsAt p ⟨5⟩ = .ok [⟨2⟩] := by
  obtain ⟨hash, loaded⟩ := ofSources_chainedCalls
  have reached : Reached (.reference (chainedCalls hash) {})
      (build (.reference (chainedCalls hash) {}) empty (chainedCalls hash).units).1 :=
    .build _ .empty
  rw [built_chainedCalls] at reached
  have outer : ((chainedCalls hash).callKind? ⟨4⟩).isSome := by cbv
  have inner : ((chainedCalls hash).callKind? ⟨5⟩).isSome := by cbv
  have starts :
      ((chainedCalls hash).span ⟨4⟩).startByte = ((chainedCalls hash).span ⟨5⟩).startByte := by cbv
  obtain ⟨alone, own⟩ := callTargets_of_own_edges (s := .reference (chainedCalls hash) {}) loaded
    (List.nodup_singleton _)
  refine ⟨_, _, loaded, built_chainedCalls hash, starts, ?_, own _ reached _ outer,
    own _ reached _ inner⟩
  intro same
  cases alone _ _ outer inner same

end CallGraph

end JavaCallGraph
