import JavaCallGraph.Proofs.Java.WorkStack
import Mathlib

/-!
Where a file stands in a program does not matter.

Lowering a file into a program comes to the same as lowering it alone and grafting the result. So
loading sources is a homomorphism: the program of two lists of sources, one behind the other, is the
graft of their programs, and every unit has the subtree that it has alone.
-/

namespace JavaCallGraph

namespace Java

theorem lowerSource_graft (p : Program) (path : String) (origin : UnitOrigin)
    (contentHash text : String) (root : Syntax) :
    lowerSource p path origin contentHash text root =
      p.graft (lowerSource .empty path origin contentHash text root) := by
  let unit := fileUnit path origin contentHash text root
  have entered : p.addUnit unit = p.graft (Program.empty.addUnit unit) := by
    rw [← Program.addUnit_graft, Program.graft_empty]
  have placed : p.nextId = Program.empty.nextId.shift p.size := by
    rw [← Program.nextId_graft, Program.graft_empty]
  rw [lowerSource_eq, lowerSource_eq, entered, placed,
    Sketch.plantAll_graft p (has_unit .empty unit) fresh_fileSketches]

end Java

namespace Program

/-! ### Sources -/

section

variable (parse : Java.Parser)

theorem addSourceBy_graft (p : Program) (s : Source) :
    p.addSourceBy parse s = (ofSourcesBy parse [s]).map fun q => (p.nextId, p.graft q) := by
  simp only [addSourceBy, ofSourcesBy, List.foldlM_cons, List.foldlM_nil]
  cases parse s.text with
  | none => rfl
  | some root =>
    exact congrArg (fun q => Except.ok (p.nextId, q)) (Java.lowerSource_graft p _ _ _ _ root)

variable {parse}

theorem ofSourcesBy_of_parse {s : Source} {root : Java.Syntax} (read : parse s.text = some root) :
    ofSourcesBy parse [s] =
      .ok (Java.lowerSource .empty s.path s.origin (Sha256.ofText s.text) s.text root) := by
  simp only [ofSourcesBy, List.foldlM_cons, List.foldlM_nil, addSourceBy, read]
  rfl

theorem ofSourcesBy_eq_ok {s : Source} {q : Program} (loaded : ofSourcesBy parse [s] = .ok q) :
    ∃ root, parse s.text = some root ∧
      q = Java.lowerSource .empty s.path s.origin (Sha256.ofText s.text) s.text root := by
  cases read : parse s.text with
  | none =>
    simp only [ofSourcesBy, List.foldlM_cons, addSourceBy, read] at loaded
    cases loaded
  | some root =>
    rw [ofSourcesBy_of_parse read] at loaded
    exact ⟨root, rfl, (Except.ok.inj loaded).symm⟩

theorem addSource_eq_ok {p q : Program} {s : Source} {unit : NodeId} :
    p.addSource s = .ok (unit, q) ↔ ∃ root, Java.Syntax.read? s.text = some root ∧ unit = p.nextId ∧
      q = p.graft (Java.lowerSource .empty s.path s.origin (Sha256.ofText s.text) s.text root) := by
  rw [addSource, addSourceBy_graft]
  constructor
  · intro added
    cases loaded : ofSourcesBy Java.Syntax.read? [s] with
    | error e =>
      rw [loaded] at added
      cases added
    | ok alone =>
      obtain ⟨root, read, rfl⟩ := ofSourcesBy_eq_ok loaded
      rw [loaded] at added
      cases added
      exact ⟨root, read, rfl, rfl⟩
  · rintro ⟨root, read, rfl, rfl⟩
    rw [ofSourcesBy_of_parse read]
    rfl

theorem addSource_of_read? (p : Program) {s : Source} {root : Java.Syntax}
    (read : Java.Syntax.read? s.text = some root) :
    p.addSource s = .ok (p.nextId,
      p.graft (Java.lowerSource .empty s.path s.origin (Sha256.ofText s.text) s.text root)) :=
  addSource_eq_ok.mpr ⟨root, read, rfl, rfl⟩

theorem grown_of_ofSourcesBy {s : Source} {q : Program} (loaded : ofSourcesBy parse [s] = .ok q) :
    q.Grown ∧ q.units = [⟨0⟩] := by
  obtain ⟨root, -, rfl⟩ := ofSourcesBy_eq_ok loaded
  exact ⟨Java.grown_lowerSource .empty, Java.units_lowerSource⟩

variable (parse) in
/-- Loading goes on from a program as it goes from the empty one. -/
theorem foldlM_addSourceBy (p : Program) (sources : List Source) :
    sources.foldlM (fun p s => do return (← p.addSourceBy parse s).2) p =
      (ofSourcesBy parse sources).map p.graft := by
  induction sources generalizing p with
  | nil => exact congrArg Except.ok p.graft_empty.symm
  | cons s rest ih =>
    simp only [ofSourcesBy, List.foldlM_cons] at ih ⊢
    rw [addSourceBy_graft, addSourceBy_graft]
    cases ofSourcesBy parse [s] with
    | error e => rfl
    | ok q =>
      change rest.foldlM _ (p.graft q) = Except.map p.graft (rest.foldlM _ (empty.graft q))
      rw [ih (p.graft q), ih (empty.graft q)]
      cases rest.foldlM (fun p s => do return (← p.addSourceBy parse s).2) empty with
      | error e => rfl
      | ok r =>
        simp only [Except.map, graft_assoc]
        rw [← graft_assoc p empty, graft_empty]

variable (parse) in
theorem ofSourcesBy_append (before after : List Source) :
    ofSourcesBy parse (before ++ after) = do
      let p ← ofSourcesBy parse before
      let q ← ofSourcesBy parse after
      return p.graft q := by
  rw [ofSourcesBy, List.foldlM_append]
  congr 1
  funext p
  rw [foldlM_addSourceBy]
  cases ofSourcesBy parse after <;> rfl

theorem graft_of_ofSourcesBy (before : List Source) {after : List Source} {p : Program}
    (loaded : ofSourcesBy parse (before ++ after) = .ok p) :
    ∃ q r, ofSourcesBy parse before = .ok q ∧ ofSourcesBy parse after = .ok r ∧ p = q.graft r := by
  rw [ofSourcesBy_append] at loaded
  cases first : ofSourcesBy parse before with
  | error e => simp [first, bind, Except.bind] at loaded
  | ok q =>
    cases second : ofSourcesBy parse after with
    | error e => simp [first, second, bind, Except.bind] at loaded
    | ok r =>
      simp only [first, second, bind, Except.bind, pure, Except.pure, Except.ok.injEq] at loaded
      exact ⟨q, r, rfl, rfl, loaded.symm⟩

/-- Texts load together when each of them has a tree. -/
theorem ofSourcesBy_ok_iff {sources : List Source} :
    (∃ p, ofSourcesBy parse sources = .ok p) ↔ ∀ s ∈ sources, (parse s.text).isSome := by
  induction sources with
  | nil => simpa using ⟨empty, rfl⟩
  | cons s rest ih =>
    rw [List.forall_mem_cons, ← ih, ← List.singleton_append, ofSourcesBy_append]
    cases read : parse s.text with
    | none => simp [ofSourcesBy, addSourceBy, read, bind, Except.bind]
    | some root =>
      rw [ofSourcesBy_of_parse read]
      cases ofSourcesBy parse rest <;> simp [bind, Except.bind, pure, Except.pure]

theorem length_units_ofSourcesBy {sources : List Source} {p : Program}
    (loaded : ofSourcesBy parse sources = .ok p) : p.units.length = sources.length := by
  induction sources generalizing p with
  | nil =>
    cases loaded
    rfl
  | cons s rest ih =>
    obtain ⟨q, r, alone, later, rfl⟩ := graft_of_ofSourcesBy [s] loaded
    rw [units_graft, (grown_of_ofSourcesBy alone).2, List.length_append, List.length_map, ih later]
    exact Nat.add_comm 1 _

end

/-- A syntax tree is appended as it would be entered alone, and nothing else changes. So texts load
exactly if each of them has a tree, and every unit has the subtree that it has alone. -/
theorem lowering_position_independent :
    (∀ (p : Program) (path : String) (origin : UnitOrigin) (contentHash text : String)
      (root : Java.Syntax),
      let alone := Java.lowerSource .empty path origin contentHash text root
      let grown := Java.lowerSource p path origin contentHash text root
      (∀ id, p.has id → grown.get? id = p.get? id) ∧
        grown.units = p.units ++ [p.nextId] ∧
        grown.size = p.size + alone.size ∧
        ∀ id, grown.get? (id.shift p.size) = (alone.get? id).map (·.rename (·.shift p.size))) ∧
    ∀ (parse : Java.Parser) (before : List Source) (s : Source) (after : List Source),
      ((∃ p, ofSourcesBy parse (before ++ s :: after) = .ok p) ↔
        ∀ x ∈ before ++ s :: after, (parse x.text).isSome) ∧
      ∀ p, ofSourcesBy parse (before ++ s :: after) = .ok p →
        ∃ earlier alone, ofSourcesBy parse before = .ok earlier ∧
          ofSourcesBy parse [s] = .ok alone ∧
          p.units[before.length]? = some earlier.nextId ∧
          p.descendants earlier.nextId = (alone.descendants ⟨0⟩).map (·.shift earlier.size) ∧
          ∀ id, alone.has id →
            p.get? (id.shift earlier.size) =
              (alone.get? id).map (·.rename (·.shift earlier.size)) := by
  refine ⟨?_, fun parse before s after => ⟨ofSourcesBy_ok_iff, ?_⟩⟩
  · intro p path origin contentHash text root alone grown
    have grafted : grown = p.graft alone :=
      Java.lowerSource_graft p path origin contentHash text root
    refine ⟨?_, Java.units_lowerSource, ?_, ?_⟩
    · intro id present
      rw [grafted, get?_graft_left p alone present]
    · rw [grafted, size_graft]
    · intro id
      rw [grafted, get?_graft_right]
  · intro p loaded
    obtain ⟨earlier, rest, first, behind, rfl⟩ := graft_of_ofSourcesBy before loaded
    obtain ⟨alone, later, single, -, rfl⟩ := graft_of_ofSourcesBy [s] behind
    obtain ⟨grown, units⟩ := grown_of_ofSourcesBy single
    have placed : ∀ id, alone.has id → (earlier.graft (alone.graft later)).get?
        (id.shift earlier.size) = (alone.get? id).map (·.rename (·.shift earlier.size)) := by
      intro id present
      rw [get?_graft_right, get?_graft_left alone later present]
    have root : alone.has ⟨0⟩ := (grown.forest.mem_units.mp (by simp [units])).1
    have copied : alone.Copied (earlier.graft (alone.graft later)) earlier.size :=
      copied_of_get? fun {id} present => placed id present
    have children : ∀ {id}, alone.has id → (earlier.graft (alone.graft later)).children
        (id.shift earlier.size) = (alone.children id).map (·.shift earlier.size) := by
      intro id present
      rw [Program.children, Program.children, placed id present]
      cases alone.get? id <;> rfl
    refine ⟨earlier, alone, first, single, ?_, copied.descendants grown.forest children root,
      placed⟩
    rw [units_graft, units_graft, units, ← length_units_ofSourcesBy first]
    simp [NodeId.shift, nextId]

end Program

/-! ### A file behind another -/

namespace Source

/-- A method that calls itself. -/
def selfCall : Source where
  path := "A.java"
  text := "class A { void m() { m(); } }"

def selfCallTree : Java.Syntax :=
  .node "program" none true ⟨⟨0, 0⟩, ⟨0, 29⟩⟩
    [.node "class_declaration" none true ⟨⟨0, 0⟩, ⟨0, 29⟩⟩
      [.node "identifier" (some "name") true ⟨⟨0, 6⟩, ⟨0, 7⟩⟩ [],
        .node "class_body" (some "body") true ⟨⟨0, 8⟩, ⟨0, 29⟩⟩
          [.node "method_declaration" none true ⟨⟨0, 10⟩, ⟨0, 27⟩⟩
            [.node "void_type" (some "type") true ⟨⟨0, 10⟩, ⟨0, 14⟩⟩ [],
              .node "identifier" (some "name") true ⟨⟨0, 15⟩, ⟨0, 16⟩⟩ [],
              .node "formal_parameters" (some "parameters") true ⟨⟨0, 16⟩, ⟨0, 18⟩⟩ [],
              .node "block" (some "body") true ⟨⟨0, 19⟩, ⟨0, 27⟩⟩
                [.node "expression_statement" none true ⟨⟨0, 21⟩, ⟨0, 25⟩⟩
                  [.node "method_invocation" none true ⟨⟨0, 21⟩, ⟨0, 24⟩⟩
                    [.node "identifier" (some "name") true ⟨⟨0, 21⟩, ⟨0, 22⟩⟩ [],
                      .node "argument_list" (some "arguments") true ⟨⟨0, 22⟩, ⟨0, 24⟩⟩ []]]]]]]]

set_option maxRecDepth 4000 in
theorem read?_selfCall :
    Java.Syntax.read? "class A { void m() { m(); } }" = some selfCallTree := by cbv

/-- The program of a method that calls itself, in a file of this origin and hash. -/
def selfCallProgram (origin : UnitOrigin) (hash : String) : Program :=
  Program.empty
    |>.addUnit { path := "A.java", origin, contentHash := hash }
    |>.append ⟨0⟩ (.type { kind := .classType, name := "A" }) ⟨1, 1, 0, 29⟩
    |>.append ⟨1⟩ (.callable { kind := .method, name := "m", returnType := some "void" })
      ⟨1, 1, 10, 27⟩
    |>.append ⟨2⟩ (.statement (.other "expression_statement")) ⟨1, 1, 21, 25⟩
    |>.append ⟨3⟩ (.methodCall { name := "m" }) ⟨1, 1, 21, 24⟩

theorem lowerSource_selfCall (origin : UnitOrigin) (hash : String) :
    Java.lowerSource .empty "A.java" origin hash "class A { void m() { m(); } }" selfCallTree =
      selfCallProgram origin hash :=
  Java.lowerSource_eq_of_runFor 7 (by cbv)

/-- A class without members. -/
def plain : Source where
  path := "B.java"
  text := "class B { }"

def plainTree : Java.Syntax :=
  .node "program" none true ⟨⟨0, 0⟩, ⟨0, 11⟩⟩
    [.node "class_declaration" none true ⟨⟨0, 0⟩, ⟨0, 11⟩⟩
      [.node "identifier" (some "name") true ⟨⟨0, 6⟩, ⟨0, 7⟩⟩ [],
        .node "class_body" (some "body") true ⟨⟨0, 8⟩, ⟨0, 11⟩⟩ []]]

theorem read?_plain : Java.Syntax.read? "class B { }" = some plainTree := by cbv

def plainProgram (hash : String) : Program :=
  Program.empty
    |>.addUnit { path := "B.java", contentHash := hash }
    |>.append ⟨0⟩ (.type { kind := .classType, name := "B" }) ⟨1, 1, 0, 11⟩

theorem lowerSource_plain (hash : String) :
    Java.lowerSource .empty "B.java" .source hash "class B { }" plainTree = plainProgram hash :=
  Java.lowerSource_eq_of_runFor 2 (by cbv)

end Source

namespace Program

theorem ofSources_selfCall :
    ∃ hash, ofSources [.selfCall] = .ok (Source.selfCallProgram .source hash) := by
  refine ⟨Sha256.ofText Source.selfCall.text, ?_⟩
  rw [← Source.lowerSource_selfCall]
  exact ofSourcesBy_of_parse (s := .selfCall) Source.read?_selfCall

theorem ofSources_plain : ∃ hash, ofSources [.plain] = .ok (Source.plainProgram hash) := by
  refine ⟨Sha256.ofText Source.plain.text, ?_⟩
  rw [← Source.lowerSource_plain]
  exact ofSourcesBy_of_parse (s := .plain) Source.read?_plain

theorem addSource_plain (p : Program) :
    ∃ hash, p.addSource .plain = .ok (p.nextId, p.graft (Source.plainProgram hash)) := by
  refine ⟨Sha256.ofText Source.plain.text, ?_⟩
  rw [← Source.lowerSource_plain]
  exact p.addSource_of_read? (s := .plain) Source.read?_plain

theorem descendants_selfCall (origin : UnitOrigin) (hash : String) :
    (Source.selfCallProgram origin hash).descendants ⟨0⟩ = [⟨0⟩, ⟨1⟩, ⟨2⟩, ⟨3⟩, ⟨4⟩] := by cbv

/-- Between two other files, the five nodes of a file are those that it has alone. -/
theorem lowering_position_independent_selfCall :
    ∃ p, ofSources [.plain, .selfCall, .plain] = .ok p ∧ p.units[1]? = some ⟨2⟩ ∧
      p.descendants ⟨2⟩ = [⟨2⟩, ⟨3⟩, ⟨4⟩, ⟨5⟩, ⟨6⟩] := by
  obtain ⟨loads, placed⟩ :=
    lowering_position_independent.2 Java.Syntax.read? [.plain] .selfCall [.plain]
  obtain ⟨p, loaded⟩ := loads.mpr (by
    simp [Source.plain, Source.selfCall, Source.read?_plain, Source.read?_selfCall])
  obtain ⟨earlier, alone, first, single, unit, subtree, -⟩ := placed p loaded
  obtain ⟨hash, plain⟩ := ofSources_plain
  obtain ⟨hash', selfCall⟩ := ofSources_selfCall
  cases plain.symm.trans first
  cases selfCall.symm.trans single
  rw [descendants_selfCall] at subtree
  exact ⟨p, loaded, unit, subtree⟩

end Program

end JavaCallGraph
