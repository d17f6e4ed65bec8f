import JavaCallGraph.CallGraph.Query
import JavaCallGraph.Proofs.CallGraph.Lasting
import JavaCallGraph.Proofs.Java.Placement
import JavaCallGraph.Proofs.Program.Arena

/-!
Two views of one file.

A file that is read twice stands twice in the program, as two copies of one program. Its nodes have
the same places and names in both, and insertions leave that alone. Call graphs tell calls apart by
place and declarations by name, so they give the same answers for both views.
-/

namespace JavaCallGraph

namespace Program

variable {p q : Program}

/-! ### Equal ranges -/

theorem sameRange_iff {a b : NodeId} :
    p.sameRange a b ↔ a = b ∨ (p.span a).isUnknown = false ∧ p.span a = p.span b ∧
      (p.kind? a).map (·.label) = (p.kind? b).map (·.label) ∧
        (p.unit? a).isSome ∧ (p.unit? a).map (·.path) = (p.unit? b).map (·.path) := by
  rw [sameRange]
  cases p.unit? a <;> cases p.unit? b <;> simp [and_assoc]

theorem sameRange_symm {a b : NodeId} (same : p.sameRange a b) : p.sameRange b a := by
  rw [sameRange_iff] at same ⊢
  rcases same with rfl | ⟨known, spans, labels, placed, paths⟩
  · exact .inl rfl
  · refine .inr ⟨spans ▸ known, spans.symm, labels.symm, ?_, paths.symm⟩
    rw [← Option.isSome_map, ← paths, Option.isSome_map]
    exact placed

theorem sameRange_trans {a b c : NodeId} (first : p.sameRange a b) (second : p.sameRange b c) :
    p.sameRange a c := by
  rw [sameRange_iff] at first second ⊢
  rcases first with rfl | ⟨known, spans, labels, placed, paths⟩
  · exact second
  · rcases second with rfl | ⟨-, spans', labels', -, paths'⟩
    · exact .inr ⟨known, spans, labels, placed, paths⟩
    · exact .inr ⟨known, spans.trans spans', labels.trans labels', placed, paths.trans paths'⟩

theorem sameRange_congr {a b : NodeId} (same : p.sameRange a b) (x : NodeId) :
    p.sameRange x a = p.sameRange x b := by
  rw [Bool.eq_iff_iff]
  constructor
  · exact fun first => sameRange_trans first same
  · exact fun second => sameRange_trans second (sameRange_symm same)

/-! ### Two copies in one program -/

theorem ownerName?_isSome {id : NodeId} :
    (p.ownerName? id).isSome = (p.nearestNamedAncestor? id).isSome := by
  rw [ownerName?]
  cases named : p.nearestNamedAncestor? id with
  | none => rfl
  | some a =>
    have isNamed : (p.simpleName? a).isSome := by simpa using List.find?_some named
    rw [Option.bind_some, isNamed, Option.isSome_some]

theorem Grown.unit?_isSome (grown : p.Grown) {id : NodeId} (present : p.has id) :
    (p.unit? id).isSome := by
  obtain ⟨u, unit, found, -, kind⟩ := grown.exists_unit present
  rw [unit?, found, Option.bind_some, kind]
  rfl

section

variable {first second : Nat} {id : NodeId}

theorem Copied.sameRange (one : q.Copied p first) (two : q.Copied p second) (grown : q.Grown)
    (present : q.has id) (known : (q.span id).isUnknown = false) :
    p.sameRange (id.shift first) (id.shift second) := by
  have path : ∀ {offset}, q.Copied p offset →
      (p.unit? (id.shift offset)).map (·.path) = (q.unit? id).map (·.path) :=
    fun copied => copied.map_unit? grown.forest present fun _ => rfl
  rw [sameRange_iff]
  refine .inr ⟨?_, ?_, ?_, ?_, ?_⟩
  · rw [one.span present, known]
  · rw [one.span present, two.span present]
  · rw [one.label present, two.label present]
  · rw [← Option.isSome_map, path one, Option.isSome_map]
    exact grown.unit?_isSome present
  · rw [path one, path two]

theorem Copied.sameDeclaration (one : q.Copied p first) (two : q.Copied p second)
    (forest : q.Forest) (present : q.has id) (callable : p.isCallable (id.shift first))
    (named : (p.nearestNamedAncestor? (id.shift first)).isSome) :
    p.sameDeclaration (id.shift first) (id.shift second) := by
  have signed : (p.signature? (id.shift first)).isSome := by
    rw [Program.signature?, Option.isSome_map]
    exact callable
  rw [← ownerName?_isSome] at named
  simp only [Program.sameDeclaration, Bool.or_eq_true, Bool.and_eq_true, beq_iff_eq]
  refine .inr ⟨⟨⟨signed, ?_⟩, named⟩, ?_⟩
  · rw [one.signature? present, two.signature? present]
  · rw [one.ownerName? forest present, two.ownerName? forest present]

end

/-! ### Insertions keep outlines -/

theorem copied_graft_left (p q : Program) : p.Copied (p.graft q) 0 := by
  apply copied_of_outline?
  intro id present
  rw [outline?, get?_graft_left p q present, outline?]

theorem ne_nextId {id : NodeId} (present : p.has id) : id ≠ p.nextId := by
  rintro rfl
  simp [has, nextId] at present

/-- All changes but those of a span keep the outlines of all nodes. -/
theorem copied_of_change {c : Change} (effect : c.Effect p q)
    (insertion : ∀ id s, c ≠ .setSpan id s) : p.Copied q 0 := by
  cases effect with
  | unit u => exact copied_of_outline? fun present => outline?_addUnit u (ne_nextId present)
  | insertion target k s _ _ => exact target.copied_append k s p
  | span _ => exact absurd rfl (insertion _ _)
  | source _ =>
    rw [Java.lowerSource_graft]
    exact copied_graft_left p _

/-- The programs that insertions lead to. -/
inductive Inserted (p : Program) : Program → Prop where
  | refl : Inserted p p
  | change {q r : Program} (c : Change) :
      Inserted p q → (∀ id s, c ≠ .setSpan id s) → c.apply q = .ok r → Inserted p r

theorem Inserted.copied (inserted : p.Inserted q) : p.Copied q 0 := by
  induction inserted with
  | refl => exact copied_of_outline? fun _ => rfl
  | change c _ insertion done ih =>
    exact ih.trans (copied_of_change (Change.effect_of_apply done) insertion)

end Program

/-! ### One file, lowered twice -/

namespace Java

variable (path contentHash text : String) (root : Syntax)

/-- Where a file came from shows in no outline. -/
theorem copied_lowerSource (origin origin' : UnitOrigin) :
    (lowerSource .empty path origin' contentHash text root).size =
        (lowerSource .empty path origin contentHash text root).size ∧
      (lowerSource .empty path origin contentHash text root).Copied
        (lowerSource .empty path origin' contentHash text root) 0 := by
  have step : Lockstep (fun _ => True) id fun q q' =>
      q'.size = q.size ∧ ∀ x, q'.outline? x = q.outline? x := by
    constructor
    · rintro q q' ⟨size, -⟩
      simp [Program.nextId, size]
    · exact fun _ => trivial
    · rintro q q' role parent k extent ⟨size, outlines⟩ - - -
      rw [id, Attach.size_append, Attach.size_append, size]
      refine ⟨rfl, fun x => ?_⟩
      rw [Attach.outline?_append, Attach.outline?_append, outlines, Program.nextId, size,
        Program.nextId]
  let unit (origin : UnitOrigin) := fileUnit path origin contentHash text root
  have entered : (Program.empty.addUnit (unit origin')).size =
      (Program.empty.addUnit (unit origin)).size ∧ ∀ x,
        (Program.empty.addUnit (unit origin')).outline? x =
          (Program.empty.addUnit (unit origin)).outline? x := by
    refine ⟨rfl, fun x => ?_⟩
    simp only [Program.outline?, Program.get?_addUnit]
    split <;> rfl
  have planted := (step.plantAll entered trivial (has_unit .empty (unit origin))
    (fileSketches text.toList root) fresh_fileSketches).1
  rw [lowerSource_eq, lowerSource_eq]
  exact ⟨planted.1, Program.copied_of_outline? fun _ => planted.2 _⟩

/-- Every node below the unit has a place. -/
theorem span_lowerSource {origin : UnitOrigin} {id : NodeId} (inner : id ≠ ⟨0⟩)
    (present : (lowerSource .empty path origin contentHash text root).has id) :
    ((lowerSource .empty path origin contentHash text root).span id).isUnknown = false := by
  have known : ∀ id n, id ≠ ⟨0⟩ →
      (lowerSource .empty path origin contentHash text root).outline? id = some n →
        n.span.isUnknown = false := by
    apply lowerSource_invariant fun q : Program =>
      ∀ id n, id ≠ ⟨0⟩ → q.outline? id = some n → n.span.isUnknown = false
    · intro id n inner read
      rw [Program.outline?_addUnit _ inner] at read
      cases read
    · intro q attach k extent known late present bare id n inner read
      rw [Attach.outline?_append] at read
      split at read
      · cases read
        exact extent.span_known
      · exact known id n inner read
  obtain ⟨n, read⟩ := Option.isSome_iff_exists.mp (Program.outline?_isSome.mpr present)
  rw [Program.span_eq, read]
  exact known id n inner read

end Java

/-- Two views of one file are copies of one program, one behind the other. -/
theorem Program.copied_of_addSource {a b : Source} (path : a.path = b.path) (text : a.text = b.text)
    {p p₁ q₁ p₂ q₂ : Program} {u₁ u₂ : NodeId} (first : p₁.addSource a = .ok (u₁, q₁))
    (between : q₁.Inserted p₂) (second : p₂.addSource b = .ok (u₂, q₂)) (later : q₂.Inserted p) :
    ∃ alone : Program,
      (alone.Grown ∧ ∀ {id}, id ≠ ⟨0⟩ → alone.has id → (alone.span id).isUnknown = false) ∧
        q₁.size = u₁.index + alone.size ∧ q₂.size = u₂.index + alone.size ∧ q₁.size ≤ u₂.index ∧
          alone.Copied p u₁.index ∧ alone.Copied p u₂.index := by
  obtain ⟨path', text', origin⟩ := a
  obtain ⟨path', text', origin'⟩ := b
  cases path
  cases text
  obtain ⟨root, read, rfl, rfl⟩ := addSource_eq_ok.mp first
  obtain ⟨root', read', rfl, rfl⟩ := addSource_eq_ok.mp second
  obtain rfl : root = root' := Option.some.inj (read.symm.trans read')
  let alone := Java.lowerSource .empty path' origin (Sha256.ofText text') text' root
  let again := Java.lowerSource .empty path' origin' (Sha256.ofText text') text' root
  obtain ⟨size, copied⟩ :=
    Java.copied_lowerSource path' (Sha256.ofText text') text' root origin origin'
  have kept : (p₁.graft alone).Copied p 0 :=
    (between.copied.trans (copied_graft_left p₂ again)).trans later.copied
  have one := (copied_graft p₁ alone).trans kept
  have two := (copied.trans (copied_graft p₂ again)).trans later.copied
  rw [Nat.zero_add] at one two
  refine ⟨alone, ⟨Java.grown_lowerSource .empty, fun inner present =>
    Java.span_lowerSource path' _ text' root inner present⟩, size_graft _ _, ?_, ?_, one, two⟩
  · rw [size_graft, size]
    rfl
  · rcases Nat.eq_zero_or_pos (p₁.graft alone).size with none | some
    · exact none ▸ Nat.zero_le _
    · have room := between.copied.size_le (has_iff.mpr some)
      rwa [Nat.zero_add] at room

namespace CallGraph

variable {s : Basis} {g : CallGraph}

/-! ### Questions about two views -/

theorem callTargetsAt_of_has {p : Program} {call : NodeId} (present : p.has call) :
    g.callTargetsAt p call = .ok (g.callTargets p call) := by
  simp [callTargetsAt, present]

theorem callTargets_congr {p : Program} {a b : NodeId} (same : p.sameRange a b) :
    g.callTargets p a = g.callTargets p b := by
  simp only [callTargets, Program.sameRange_congr same]

theorem vertex_congr {p : Program} (sound : Sound p g) {a b : NodeId}
    (same : p.sameDeclaration a b) (described : p.describe a = p.describe b) :
    g.vertex p a = g.vertex p b := by
  rw [vertex, vertex, vertex?_congr sound same, described]

/-- A file that was read twice has two views with as many nodes each. At the same place below their
units, both have calls with the same targets and declarations with the same vertex. -/
theorem views_interchangeable (reached : Reached s g) {a b : Source} (path : a.path = b.path)
    (text : a.text = b.text) {p₁ q₁ p₂ q₂ : Program} {u₁ u₂ : NodeId}
    (first : p₁.addSource a = .ok (u₁, q₁)) (between : q₁.Inserted p₂)
    (second : p₂.addSource b = .ok (u₂, q₂)) (later : q₂.Inserted s.program) :
    ∃ count, q₁.size = u₁.index + count ∧ q₂.size = u₂.index + count ∧ q₁.size ≤ u₂.index ∧
      ∀ k, 1 ≤ k → k < count →
        let v : NodeId := ⟨u₁.index + k⟩
        let w : NodeId := ⟨u₂.index + k⟩
        s.program.sameRange v w ∧
        (∃ targets, g.callTargetsAt s.program v = .ok targets ∧
          g.callTargetsAt s.program w = .ok targets) ∧
        (s.program.isCallable v → (s.program.nearestNamedAncestor? v).isSome →
          s.program.isCallable w ∧ s.program.sameDeclaration v w ∧
          g.edgesFrom s.program v = g.edgesFrom s.program w ∧
          g.edgesTo s.program v = g.edgesTo s.program w ∧
          g.callsTo s.program v = g.callsTo s.program w ∧
          g.callsFrom s.program v = g.callsFrom s.program w ∧
          g.callersOf s.program v = g.callersOf s.program w ∧
          g.calleesOf s.program v = g.calleesOf s.program w) := by
  obtain ⟨alone, ⟨grown, known⟩, size, size', apart, one, two⟩ :=
    Program.copied_of_addSource path text first between second later
  refine ⟨alone.size, size, size', apart, ?_⟩
  intro k inner small v w
  have present : alone.has ⟨k⟩ := Program.has_iff.mpr small
  have below : (⟨k⟩ : NodeId) ≠ ⟨0⟩ := by
    intro root
    cases root
    omega
  have ranges : s.program.sameRange v w := one.sameRange two grown present (known below present)
  have targets : g.callTargetsAt s.program v = .ok (g.callTargets s.program v) :=
    callTargetsAt_of_has (one.has_shift present)
  have targets' : g.callTargetsAt s.program w = .ok (g.callTargets s.program w) :=
    callTargetsAt_of_has (two.has_shift present)
  rw [← callTargets_congr ranges] at targets'
  refine ⟨ranges, ⟨_, targets, targets'⟩, fun callable named => ?_⟩
  have same : s.program.sameDeclaration v w :=
    one.sameDeclaration two grown.forest present callable named
  have declared : alone.isCallable ⟨k⟩ := (one.isCallable present).symm.trans callable
  have callable' : s.program.isCallable w := (two.isCallable present).trans declared
  have described : s.program.describe v = s.program.describe w :=
    (one.describe grown.forest present declared).trans
      (two.describe grown.forest present declared).symm
  have vertices := vertex_congr ((sound_lasting s).reached reached) same described
  have leaving : g.edgesFrom s.program v = g.edgesFrom s.program w := by
    rw [edgesFrom, edgesFrom, vertices]
  have entering : g.edgesTo s.program v = g.edgesTo s.program w := by
    rw [edgesTo, edgesTo, vertices]
  refine ⟨callable', same, leaving, entering, ?_, ?_, ?_, ?_⟩
  · rw [callsTo, callsTo, entering]
  · rw [callsFrom, callsFrom, leaving]
  · rw [callersOf, callersOf, entering]
  · rw [calleesOf, calleesOf, leaving]

end CallGraph

/-! ### A library that is also a source -/

/-- The file of `selfCall` among the libraries. -/
def Source.selfCallLibrary : Source where
  path := "A.java"
  text := "class A { void m() { m(); } }"
  origin := .library

namespace CallGraph

def readOnce (hash : String) : Program :=
  Program.empty.graft (Source.selfCallProgram .source hash)

def readOther (hash hash' : String) : Program :=
  (readOnce hash).graft (Source.plainProgram hash')

def readTwice (hash hash' : String) : Program :=
  (readOther hash hash').graft (Source.selfCallProgram .library hash)

theorem readTwice_nodes (hash hash' : String) :
    (readOnce hash).size = 5 ∧ (readOther hash hash').size = 7 ∧
      (readTwice hash hash').isCallable ⟨2⟩ ∧
        ((readTwice hash hash').nearestNamedAncestor? ⟨2⟩).isSome := by
  refine ⟨?_, ?_, ?_, ?_⟩ <;> cbv

theorem readTwice_loaded : ∃ hash hash',
    Program.empty.addSource .selfCall = .ok (⟨0⟩, readOnce hash) ∧
      (readOnce hash).addSource .plain = .ok (⟨5⟩, readOther hash hash') ∧
        (readOther hash hash').addSource .selfCallLibrary = .ok (⟨7⟩, readTwice hash hash') := by
  obtain ⟨hash', between⟩ := (readOnce (Sha256.ofText Source.selfCall.text)).addSource_plain
  rw [Program.nextId, (readTwice_nodes _ "").1] at between
  refine ⟨Sha256.ofText Source.selfCall.text, hash', ?_, between, ?_⟩
  · rw [readOnce, ← Source.lowerSource_selfCall]
    exact Program.addSource_of_read? .empty (s := .selfCall) Source.read?_selfCall
  · have read := Program.addSource_of_read? (readOther (Sha256.ofText Source.selfCall.text) hash')
      (s := .selfCallLibrary) Source.read?_selfCall
    rw [Program.nextId, (readTwice_nodes _ _).2.1] at read
    rw [readTwice, ← Source.lowerSource_selfCall]
    exact read

theorem views_interchangeable_selfCall :
    ∃ q₁ p₂ q₂, Program.empty.addSource .selfCall = .ok (⟨0⟩, q₁) ∧
      q₁.addSource .plain = .ok (⟨5⟩, p₂) ∧ p₂.addSource .selfCallLibrary = .ok (⟨7⟩, q₂) ∧
      q₂.sameRange ⟨4⟩ ⟨11⟩ ∧ q₂.sameDeclaration ⟨2⟩ ⟨9⟩ ∧
      (build (.reference q₂ {}) empty [⟨0⟩]).1.calleesOf q₂ ⟨2⟩ =
        (build (.reference q₂ {}) empty [⟨0⟩]).1.calleesOf q₂ ⟨9⟩ := by
  obtain ⟨hash, hash', first, between, second⟩ := readTwice_loaded
  obtain ⟨nodes, -, callable, named⟩ := readTwice_nodes hash hash'
  have inserted : (readOnce hash).Inserted (readOther hash hash') :=
    .change (.addSource .plain) .refl (by simp) (congrArg (Prod.snd <$> ·) between)
  have reached : Reached (.reference (readTwice hash hash') {})
      (build (.reference (readTwice hash hash') {}) empty [⟨0⟩]).1 := .build [⟨0⟩] .empty
  obtain ⟨count, size, -, -, views⟩ := views_interchangeable reached
    (a := .selfCall) (b := .selfCallLibrary) rfl rfl first inserted second .refl
  obtain rfl : count = 5 := by
    rw [nodes, Nat.zero_add] at size
    exact size.symm
  obtain ⟨-, -, declarations⟩ := views 2 (by decide) (by decide)
  obtain ⟨-, same, -, -, -, -, -, callees⟩ := declarations callable named
  exact ⟨_, _, _, first, between, second, (views 4 (by decide) (by decide)).1, same, callees⟩

end CallGraph

end JavaCallGraph
