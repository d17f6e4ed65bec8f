import JavaCallGraph.Proofs.Java.Placement
import JavaCallGraph.Proofs.Loop
import JavaCallGraph.Proofs.Program.Lineage

/-!
Programs that any sequence of changes leads to.

A change inserts a node, moves a span or adds a whole file. As long as no node is inserted below
itself, the changes keep the program a forest whose roots are its units, and the walk up from a node
and the walk down from a root see the same links: a node is listed below a root exactly if the root
stands above it, once, and behind its parent.
-/

namespace JavaCallGraph

namespace Program

variable {p : Program}

namespace Forest

/-! ### Lines of ancestors -/

theorem lineage_root {c : NodeId} (root : p.parent? c = none) : p.lineage c = [c] := by
  rw [lineage, ancestors_root root]

theorem lineage_child (forest : p.Forest) {c q : NodeId} (above : p.parent? c = some q) :
    p.lineage c = c :: p.lineage q := by
  rw [lineage, forest.ancestors_child above, lineage]

theorem lineage_trans (forest : p.Forest) {a b n : NodeId} (first : a ∈ p.lineage b)
    (second : b ∈ p.lineage n) : a ∈ p.lineage n := by
  rcases List.mem_cons.mp first with rfl | higher
  · exact second
  · rcases List.mem_cons.mp second with rfl | higher'
    · exact first
    · exact List.mem_cons_of_mem n (forest.ancestors_trans higher higher')

theorem parent_mem_lineage (forest : p.Forest) {c q : NodeId} (above : p.parent? c = some q) :
    q ∈ p.lineage c := by
  rw [forest.lineage_child above]
  exact List.mem_cons_of_mem c List.mem_cons_self

theorem mem_descendants_iff (forest : p.Forest) {r n : NodeId} :
    n ∈ p.descendants r ↔ r ∈ p.lineage n := by
  rw [forest.mem_descendants, lineage, List.mem_cons]
  exact or_congr_left eq_comm

/-- Of two nodes on one line, one is above the other. -/
theorem lineage_total (forest : p.Forest) {a b n : NodeId} (first : a ∈ p.lineage n)
    (second : b ∈ p.lineage n) : a ∈ p.lineage b ∨ b ∈ p.lineage a := by
  induction n using forest.climb with
  | step n ih =>
    rcases List.mem_cons.mp first with rfl | higher
    · exact .inr second
    · rcases List.mem_cons.mp second with rfl | higher'
      · exact .inl first
      · cases above : p.parent? n with
        | none => simp [ancestors_root above] at higher
        | some q =>
          rw [forest.ancestors_child above] at higher higher'
          exact ih q above higher higher'

/-- Siblings share no descendant. -/
theorem eq_of_siblings (forest : p.Forest) {q c d n : NodeId} (first : p.parent? c = some q)
    (second : p.parent? d = some q) (below : c ∈ p.lineage n) (below' : d ∈ p.lineage n) :
    c = d := by
  have older : ∀ {x y : NodeId}, p.parent? x = some q → p.parent? y = some q →
      x ∈ p.lineage y → x = y := by
    intro x y above above' line
    rw [forest.lineage_child above', List.mem_cons] at line
    apply line.resolve_right
    intro higher
    have := forest.le_of_mem_lineage higher
    have := forest.parent_lt above
    omega
  rcases forest.lineage_total below below' with line | line
  · exact older first second line
  · exact (older second first line).symm

theorem root_unique (forest : p.Forest) {n : NodeId} (present : p.has n) :
    ∃! r, r ∈ p.lineage n ∧ p.parent? r = none := by
  obtain ⟨u, unit, below⟩ := forest.exists_unit_above present
  have root := (forest.mem_units.mp unit).2
  refine ⟨u, ⟨forest.mem_descendants_iff.mp below, root⟩, ?_⟩
  rintro r ⟨line, root'⟩
  rcases forest.lineage_total line (forest.mem_descendants_iff.mp below) with line | line
  · rw [lineage_root root] at line
    exact List.mem_singleton.mp line
  · rw [lineage_root root'] at line
    exact (List.mem_singleton.mp line).symm

/-! ### Listings of descendants -/

theorem descendants_nodup (forest : p.Forest) (r : NodeId) : (p.descendants r).Nodup := by
  induction r using forest.descend with
  | step r ih =>
    rw [forest.descendants_eq, List.nodup_cons]
    constructor
    · intro below
      obtain ⟨c, child, below⟩ := List.mem_flatMap.mp below
      have := forest.le_of_mem_lineage (forest.mem_descendants_iff.mp below)
      have := (forest.child_lt child).1
      omega
    · apply List.nodup_flatMap.mpr
      refine ⟨ih, (forest.children_nodup r).pairwise_of_forall_ne ?_⟩
      intro c child d child' apart n below below'
      exact apart (forest.eq_of_siblings (forest.mem_children.mp child)
        (forest.mem_children.mp child') (forest.mem_descendants_iff.mp below)
          (forest.mem_descendants_iff.mp below'))

theorem count_descendants (forest : p.Forest) (r n : NodeId) :
    (p.descendants r).count n = if p.contains r n then 1 else 0 := by
  by_cases below : n ∈ p.descendants r
  · rw [if_pos (forest.contains_iff.mpr below)]
    exact List.count_eq_one_of_mem (forest.descendants_nodup r) below
  · rw [if_neg (mt forest.contains_iff.mp below)]
    exact List.count_eq_zero_of_not_mem below

theorem parent_first (forest : p.Forest) {r n : NodeId} (below : n ∈ p.descendants r)
    (other : n ≠ r) :
    ∃ q, p.parent? n = some q ∧ List.Sublist [q, n] (p.descendants r) := by
  induction r using forest.descend with
  | step r ih =>
    rw [forest.descendants_eq] at below ⊢
    have lower := (List.mem_cons.mp below).resolve_left other
    obtain ⟨c, child, inside⟩ := List.mem_flatMap.mp lower
    by_cases same : n = c
    · subst same
      refine ⟨r, forest.mem_children.mp child, ?_⟩
      exact (List.singleton_sublist.mpr lower).cons_cons r
    · obtain ⟨q, above, order⟩ := ih c child inside same
      have part : List.Sublist (p.descendants c) ((p.children r).flatMap p.descendants) :=
        List.sublist_flatten_of_mem (List.mem_map_of_mem child)
      exact ⟨q, above, (order.trans part).cons r⟩

/-! ### The loops behind the listings -/

end Forest

/-- One round up: the node to list next, and the nodes listed so far. -/
def climbOnce (p : Program) : Option NodeId × List NodeId → Option (Option NodeId × List NodeId)
  | (none, _) => none
  | (some id, above) => some (p.parent? id, above ++ [id])

/-- One round down: the stack of nodes to list, and the nodes listed so far. -/
def popOnce (p : Program) : List NodeId × List NodeId → Option (List NodeId × List NodeId)
  | ([], _) => none
  | (id :: stack, listed) => some (p.children id ++ stack, listed ++ [id])

namespace Forest

theorem climb_ends (forest : p.Forest) (n : NodeId) (above : List NodeId) :
    Loop.Ends p.climbOnce (p.parent? n, above) (none, above ++ p.ancestors n) := by
  induction n using forest.climb generalizing above with
  | step n ih =>
    cases parent : p.parent? n with
    | none =>
      rw [ancestors_root parent, List.append_nil]
      exact .here rfl
    | some q =>
      have rest := ih q parent (above ++ [q])
      rw [List.append_assoc, List.singleton_append, ← forest.ancestors_child parent] at rest
      exact .step rfl rest

/-- A node on top of the stack is replaced by the listing of what lies beneath it. -/
theorem pop_ends (forest : p.Forest) {r : NodeId} {stack listed : List NodeId}
    {final : List NodeId × List NodeId}
    (rest : Loop.Ends p.popOnce (stack, listed ++ p.descendants r) final) :
    Loop.Ends p.popOnce (r :: stack, listed) final := by
  induction r using forest.descend generalizing stack listed with
  | step r ih =>
    refine .step rfl (.stacked p.descendants ?_ ?_)
    · intro c child stack listed
      exact ih c child
    · rw [forest.descendants_eq] at rest
      simpa using rest

theorem descendants_ends (forest : p.Forest) (r : NodeId) :
    Loop.Ends p.popOnce ([r], []) ([], p.descendants r) :=
  forest.pop_ends (.here rfl)

end Forest

/-! ### Units -/

theorem isUnit_modify {id : NodeId} {f : Node → Node}
    (same : ∀ n, (f n).kind.unit?.isSome = n.kind.unit?.isSome) (x : NodeId) :
    (p.modify id f).isUnit x = p.isUnit x := by
  unfold isUnit kind?
  rw [get?_modify]
  by_cases here : x = id
  · cases read : p.get? x <;> simp [here, same]
  · rw [if_neg here]

theorem isUnit_append {parent x : NodeId} (present : p.has x) (k : NodeKind) (s : Span) :
    (p.append parent k s).isUnit x = p.isUnit x := by
  have old : x ≠ p.nextId := by
    rintro rfl
    simp [has, nextId] at present
  unfold isUnit kind?
  rw [get?_append, if_neg old]
  cases p.get? x with
  | none => rfl
  | some n => by_cases here : x = parent <;> simp [here]

theorem Grown.isUnit_of_mem_units (grown : p.Grown) {u : NodeId} (unit : u ∈ p.units) :
    p.isUnit u := by
  induction grown with
  | empty => cases unit
  | @addUnit p v grown ih =>
    rcases List.mem_append.mp unit with old | new
    · by_cases same : u = p.nextId
      · simp [isUnit, kind?, get?_addUnit, same, NodeKind.unit?]
      · simpa [isUnit, kind?, get?_addUnit, same] using ih old
    · simp [isUnit, kind?, get?_addUnit, List.mem_singleton.mp new, NodeKind.unit?]
  | append k s grown present ih =>
    rw [isUnit_append (grown.forest.mem_units.mp unit).1]
    exact ih unit
  | appendReceiver k s grown present ih =>
    rw [Program.appendReceiver, isUnit_modify (by rintro ⟨k, -⟩; cases k <;> rfl),
      isUnit_append (grown.forest.mem_units.mp unit).1]
    exact ih unit
  | appendArgument k s grown present ih =>
    rw [Program.appendArgument, isUnit_modify (by rintro ⟨k, -⟩; cases k <;> rfl),
      isUnit_append (grown.forest.mem_units.mp unit).1]
    exact ih unit
  | @setSpan p q id s grown changed ih =>
    simp only [Program.setSpan, bind, Except.bind] at changed
    split at changed
    · cases changed
    · cases changed
      have same : ∀ n : Node, ({ n with span := s } : Node).kind.unit?.isSome =
          n.kind.unit?.isSome := fun _ => rfl
      rw [isUnit_modify same]
      exact ih unit

/-- Every node lies in a unit. -/
theorem Grown.exists_unit (grown : p.Grown) {id : NodeId} (present : p.has id) :
    ∃ u unit, p.unitOf? id = some u ∧ u ∈ p.lineage id ∧ p.kind? u = some (.unit unit) := by
  obtain ⟨root, rooted, below⟩ := grown.forest.exists_unit_above present
  have found : (p.unitOf? id).isSome := by
    apply List.find?_isSome.mpr
    exact ⟨root, grown.forest.mem_descendants_iff.mp below, grown.isUnit_of_mem_units rooted⟩
  obtain ⟨u, found⟩ := Option.isSome_iff_exists.mp found
  have isUnit : p.isUnit u := List.find?_some found
  cases kind : p.kind? u with
  | none => simp [Program.isUnit, kind] at isUnit
  | some k =>
    cases k with
    | unit unit => exact ⟨u, unit, found, List.mem_of_find?_eq_some found, kind⟩
    | _ => simp [Program.isUnit, kind, NodeKind.unit?] at isUnit

end Program

/-! ### Changes -/

/-- An operation that changes a program. -/
inductive Change where
  | addUnit (unit : CompilationUnit)
  | add (parent : NodeId) (kind : NodeKind) (span : Span)
  | addReceiver (call : NodeId) (kind : NodeKind) (span : Span)
  | addArgument (call : NodeId) (kind : NodeKind) (span : Span)
  | addType (parent : NodeId) (decl : TypeDecl)
  | addCallable (owner : NodeId) (decl : CallableDecl)
  | addConstructor (owner : NodeId) (parameters : List Parameter)
  | addField (owner : NodeId) (decl : FieldDecl)
  | addStatement (parent : NodeId)
  | addLocalVariable (parent : NodeId) (typeName name : String)
  | addMethodCall (parent : NodeId) (name : String) (scope : CallScope)
  | addObjectCreation (parent : NodeId) (typeName : String)
  | addConstructorInvocation (parent : NodeId) (isThis : Bool)
  | setSpan (id : NodeId) (span : Span)
  | addSource (source : Source)

namespace Change

def apply (p : Program) : Change → Except Error Program
  | addUnit unit => .ok (p.addUnit unit)
  | add parent kind span => Prod.snd <$> p.add parent kind span
  | addReceiver call kind span => Prod.snd <$> p.addReceiver call kind span
  | addArgument call kind span => Prod.snd <$> p.addArgument call kind span
  | addType parent decl => Prod.snd <$> p.addType parent decl
  | addCallable owner decl => Prod.snd <$> p.addCallable owner decl
  | addConstructor owner parameters => Prod.snd <$> p.addConstructor owner parameters
  | addField owner decl => Prod.snd <$> p.addField owner decl
  | addStatement parent => Prod.snd <$> p.addStatement parent
  | addLocalVariable parent typeName name => Prod.snd <$> p.addLocalVariable parent typeName name
  | addMethodCall parent name scope => Prod.snd <$> p.addMethodCall parent name scope
  | addObjectCreation parent typeName => Prod.snd <$> p.addObjectCreation parent typeName
  | addConstructorInvocation parent isThis => Prod.snd <$> p.addConstructorInvocation parent isThis
  | setSpan id span => p.setSpan id span
  | addSource source => Prod.snd <$> p.addSource source

/-- The node below which a change inserts one. -/
def parent? : Change → Option NodeId
  | add parent _ _ | addReceiver parent _ _ | addArgument parent _ _ | addType parent _
  | addCallable parent _ | addConstructor parent _ | addField parent _ | addStatement parent
  | addLocalVariable parent _ _ | addMethodCall parent _ _ | addObjectCreation parent _
  | addConstructorInvocation parent _ => some parent
  | addUnit _ | setSpan _ _ | addSource _ => none

/-- What a change comes to. -/
inductive Effect (p : Program) : Change → Program → Prop where
  | unit (u : CompilationUnit) : Effect p (.addUnit u) (p.addUnit u)
  | insertion {c : Change} (target : Java.Attach) (k : NodeKind) (s : Span) :
      c.parent? = some target.parent → target.parent.index ≤ p.size →
        Effect p c (target.append k s p)
  | span {q : Program} {id : NodeId} {s : Span} :
      p.setSpan id s = .ok q → Effect p (.setSpan id s) q
  | source {s : Source} {root : Java.Syntax} : Java.Syntax.read? s.text = some root →
      Effect p (.addSource s) (Java.lowerSource p s.path s.origin (Sha256.ofText s.text) s.text root)

variable {p q : Program} {c : Change}

theorem effect_of_under (target : Java.Attach) {k : NodeKind} {s : Span}
    (done : Prod.snd <$> p.under target.parent (fun p => target.append k s p) = .ok q)
    (below : c.parent? = some target.parent) : c.Effect p q := by
  unfold Program.under at done
  by_cases small : target.parent.index ≤ p.size
  · rw [if_pos small] at done
    cases done
    exact .insertion target k s below small
  · rw [if_neg small] at done
    cases done

theorem effect_of_add {parent : NodeId} {k : NodeKind} {s : Span}
    (done : Prod.snd <$> p.add parent k s = .ok q) (below : c.parent? = some parent) :
    c.Effect p q :=
  effect_of_under (.child parent) done below

theorem effect_of_apply (done : c.apply p = .ok q) : c.Effect p q := by
  cases c with
  | addUnit u =>
    cases done
    exact .unit u
  | addReceiver call k s => exact effect_of_under (.receiver call) done rfl
  | addArgument call k s => exact effect_of_under (.argument call) done rfl
  | addConstructor owner parameters =>
    simp only [apply, Program.addConstructor, bind, Except.bind] at done
    cases found : p.node owner with
    | error e => simp [found] at done
    | ok n =>
      rw [found] at done
      exact effect_of_add done rfl
  | setSpan id s => exact .span done
  | addSource s =>
    simp only [apply, Program.addSource, Program.addSourceBy] at done
    cases read : Java.Syntax.read? s.text with
    | none =>
      rw [read] at done
      cases done
    | some root =>
      rw [read] at done
      cases done
      exact .source read
  | _ => exact effect_of_add done rfl

end Change

namespace Program

variable {p q : Program}

/-- Programs made from the empty one by changes, none of which inserts a node below itself. -/
inductive Made : Program → Prop where
  | empty : Made .empty
  | change {p q : Program} (c : Change) :
      Made p → c.parent? ≠ some p.nextId → c.apply p = .ok q → Made q

theorem Grown.change (grown : p.Grown) {c : Change} (effect : c.Effect p q)
    (other : c.parent? ≠ some p.nextId) : q.Grown := by
  cases effect with
  | unit u => exact grown.addUnit u
  | insertion target k s below small =>
    have present : p.has target.parent := by
      rw [has_iff]
      apply Nat.lt_of_le_of_ne small
      intro last
      apply other
      rw [below, nextId, ← last]
    exact target.grown_append k s grown present
  | span done => exact grown.setSpan done
  | source _ => exact Java.grown_lowerSource grown

theorem Made.grown (made : p.Made) : p.Grown := by
  induction made with
  | empty => exact .empty
  | change c _ other done ih => exact ih.change (Change.effect_of_apply done) other

/-- Every sequence of changes, none of which inserts a node below itself, leaves a forest rooted in
its units, where the walks up and down end by themselves and agree. -/
theorem made_arena (made : p.Made) :
    p.Forest ∧ (∀ u ∈ p.units, p.isUnit u) ∧
    (∀ n, p.has n → ∃! r, r ∈ p.lineage n ∧ p.parent? r = none) ∧
    (∀ n, p.has n → ∀ r ∈ p.lineage n, p.parent? r = none → r ∈ p.units) ∧
    (∀ r n, (p.descendants r).count n = if p.contains r n then 1 else 0) ∧
    (∀ r, ∀ n ∈ p.descendants r, n ≠ r →
      ∃ q, p.parent? n = some q ∧ List.Sublist [q, n] (p.descendants r)) ∧
    (∀ n, Loop.Ends p.climbOnce (p.parent? n, []) (none, p.ancestors n)) ∧
    ∀ r, Loop.Ends p.popOnce ([r], []) ([], p.descendants r) := by
  have forest := made.grown.forest
  refine ⟨forest, fun u unit => made.grown.isUnit_of_mem_units unit, fun n present =>
    forest.root_unique present, ?_, forest.count_descendants, fun r n below other =>
      forest.parent_first below other, fun n => forest.climb_ends n [], forest.descendants_ends⟩
  intro n present r line root
  exact forest.mem_units.mpr ⟨forest.has_of_mem_lineage present line, root⟩

/-- A call with a receiver and an argument, whose statement has a place. -/
def byHand : Program :=
  let call := Program.empty
    |>.addUnit { path := "B.java" }
    |>.append ⟨0⟩ (.type { kind := .classType, name := "B" }) .unknown
    |>.append ⟨1⟩ (.callable (.method "f")) .unknown
    |>.append ⟨2⟩ (.statement (.other "expression_statement")) .unknown
    |>.append ⟨3⟩ (.methodCall { name := "m", scope := .implicit }) .unknown
  let operands := (call.appendReceiver ⟨4⟩ (.expression (.name "a")) .unknown).appendArgument ⟨4⟩
    (.expression .this) .unknown
  operands.modify ⟨3⟩ fun n => { n with span := .lines 3 3 }

theorem byHand_made : byHand.Made := by
  have unit := Made.empty.change (.addUnit { path := "B.java" }) (by decide) rfl
  have type := unit.change (.addType ⟨0⟩ { kind := .classType, name := "B" }) (by decide) rfl
  have method := type.change (.addCallable ⟨1⟩ (.method "f")) (by decide) rfl
  have statement := method.change (.addStatement ⟨2⟩) (by decide) rfl
  have call := statement.change (.addMethodCall ⟨3⟩ "m" .implicit) (by decide) rfl
  have receiver := call.change (.addReceiver ⟨4⟩ (.expression (.name "a")) .unknown) (by decide) rfl
  have argument := receiver.change (.addArgument ⟨4⟩ (.expression .this) .unknown) (by decide) rfl
  exact argument.change (.setSpan ⟨3⟩ (.lines 3 3)) (by decide) rfl

/-- A file behind a program that was made by hand. -/
theorem made_arena_byHand : ∃ p, byHand.addSource .selfCall = .ok (⟨7⟩, p) ∧ p.Made ∧
    p.Forest ∧ (∃! r, r ∈ p.lineage ⟨6⟩ ∧ p.parent? r = none) ∧
      (p.descendants ⟨7⟩).count ⟨6⟩ = (if p.contains ⟨7⟩ ⟨6⟩ then 1 else 0) ∧
        Loop.Ends p.popOnce ([⟨7⟩], []) ([], p.descendants ⟨7⟩) := by
  have loaded := byHand.addSource_of_read? (s := .selfCall) Source.read?_selfCall
  have made := byHand_made.change (.addSource .selfCall) (by decide)
    (congrArg (Prod.snd <$> ·) loaded)
  obtain ⟨forest, -, rooted, -, counted, -, -, down⟩ := made_arena made
  refine ⟨_, loaded, made, forest, rooted ⟨6⟩ ?_, counted ⟨7⟩ ⟨6⟩, down ⟨7⟩⟩
  have older : byHand.size = 7 := rfl
  rw [has_iff, size_graft, older]
  exact Nat.lt_add_right _ (by decide)

/-- The walk up from a node that is its own parent never ends. -/
theorem climb_forever {n : NodeId} (own : p.parent? n = some n)
    (final : Option NodeId × List NodeId) : ¬Loop.Ends p.climbOnce (p.parent? n, []) final := by
  rintro ⟨climbed, ended⟩
  -- the node to list next is the same after every round
  have again : final.1 = some n := by
    clear ended
    induction climbed with
    | refl => exact own
    | @tail state next _ step ih =>
      obtain ⟨id, above⟩ := state
      cases ih
      cases step
      exact own
  obtain ⟨id, above⟩ := final
  cases again
  cases ended

/-- A node can be inserted below itself, and then the program is no forest. -/
theorem own_parent_not_forest : ∃ start p,
    Change.apply .empty (.addUnit { path := "A.java" }) = .ok start ∧
      Change.apply start (.add ⟨1⟩ (.expression (.name "x")) .unknown) = .ok p ∧
        p.parent? ⟨1⟩ = some ⟨1⟩ ∧ ¬p.Forest ∧
          ∀ final, ¬Loop.Ends p.climbOnce (p.parent? ⟨1⟩, []) final := by
  refine ⟨_, _, rfl, rfl, rfl, fun forest => ?_, climb_forever rfl⟩
  exact absurd (forest.parent_lt (c := ⟨1⟩) (q := ⟨1⟩) rfl) (Nat.lt_irrefl 1)

end Program

end JavaCallGraph
