import JavaCallGraph.Proofs.Program.Forest
import JavaCallGraph.Proofs.Resolver
import Mathlib.Data.List.Forall2

/-!
Which overload a method call takes.

Once the types of all arguments are known, an overload that has just these parameter types gets the
greatest score there is, and no other overload of the same arity gets it. So it wins among the
methods of its own type. The methods of different types are never compared: the search ends in the
nearest type that has any method of the right name and arity, and an exact overload farther up is
not seen.
-/

namespace JavaCallGraph

namespace Program

/-- Whether a node is a callable whose parameters have the given simple types, in this order. -/
def takes (p : Program) (types : List String) (m : NodeId) : Bool :=
  (p.callable? m).any fun d => d.parameters.map (fun q => TypeName.simple q.typeName) == types

theorem arguments_methodCall {p : Program} {call : NodeId} {c : MethodCall}
    (kind : p.kind? call = some (.methodCall c)) : p.arguments call = c.arguments := by
  rw [arguments, kind]
  rfl

end Program

namespace Resolver

variable {h : Hierarchy} {typeOf : NodeId → Except Error NodeId}

/-! ### The first of the greatest -/

/-- A scan keeps an element at least as great as its start and all it has passed. -/
theorem le_foldl_max (value : NodeId → Nat) (rest : List NodeId) (start : NodeId) :
    ∀ y ∈ start :: rest, value y ≤
      value (rest.foldl (fun best z => if value best < value z then z else best) start) := by
  induction rest generalizing start with
  | nil => simp
  | cons z rest ih =>
    intro y member
    rw [List.foldl_cons]
    have kept := ih (if value start < value z then z else start)
    have ahead := kept _ List.mem_cons_self
    rcases List.mem_cons.mp member with rfl | later
    · split at ahead <;> grind
    · rcases List.mem_cons.mp later with rfl | later
      · split at ahead <;> grind
      · exact kept y (List.mem_cons_of_mem _ later)

theorem le_of_firstMax {value : NodeId → Nat} {xs : List NodeId} {x : NodeId}
    (first : firstMax value xs = some x) : ∀ y ∈ xs, value y ≤ value x := by
  cases xs with
  | nil => cases first
  | cons start rest =>
    cases first
    exact le_foldl_max value rest start

theorem firstMax_isSome (value : NodeId → Nat) {xs : List NodeId} (some_ : xs ≠ []) :
    (firstMax value xs).isSome := by
  cases xs with
  | nil => exact absurd rfl some_
  | cons x rest => rfl

/-! ### Scores -/

/-- Every parameter matches just if the parameter types are the argument types. -/
theorem countP_matches_eq_length {parameters : List Parameter} {types : List String}
    (sized : parameters.length = types.length) :
    ((parameters.zip (types.map some)).countP fun (q, a) =>
        a == some (TypeName.simple q.typeName)) = types.length ↔
      parameters.map (fun q => TypeName.simple q.typeName) = types := by
  have paired : (parameters.zip (types.map some)).length = types.length := by
    simp [sized]
  rw [← paired, List.countP_eq_length]
  clear paired
  induction parameters generalizing types with
  | nil =>
    obtain rfl := List.length_eq_zero_iff.mp sized.symm
    simp
  | cons q parameters ih =>
    cases types with
    | nil => cases sized
    | cons s types =>
      rw [List.map_cons, List.zip_cons_cons, List.forall_mem_cons, List.map_cons, List.cons.injEq]
      apply and_congr
      · rw [beq_iff_eq, Option.some.injEq]
        exact eq_comm
      · exact ih (Nat.succ.inj sized)

theorem score_le (types : List String) (m : NodeId) :
    score h (types.map some) m ≤ types.length := by
  unfold score
  split
  · apply Nat.le_trans List.countP_le_length
    rw [List.length_zip, List.length_map]
    exact Nat.min_le_right _ _
  · exact Nat.zero_le _

/-- An overload of the right arity has the greatest score just if it takes the argument types. -/
theorem score_eq_length {types : List String} {name : String} {m : NodeId}
    (shape : h.program.hasShape name types.length m) :
    score h (types.map some) m = types.length ↔ h.program.takes types m := by
  obtain ⟨d, read, -, sized⟩ := Program.hasShape_iff.mp shape
  rw [score, read, Program.takes, read, Option.any_some, beq_iff_eq]
  exact countP_matches_eq_length sized

/-! ### The best candidate -/

/-- Every argument of a list has a type that can be derived, and these are the types. -/
def ArgumentTypes (h : Hierarchy) (typeOf : NodeId → Except Error NodeId) :
    List NodeId → List String → Prop :=
  List.Forall₂ fun a s => argumentType h typeOf a = .ok (some s)

theorem ArgumentTypes.mapM {arguments : List NodeId} {types : List String}
    (derived : ArgumentTypes h typeOf arguments types) :
    arguments.mapM (argumentType h typeOf) = .ok (types.map some) := by
  induction derived with
  | nil => rfl
  | cons first _ ih =>
    rw [List.mapM_cons, first, ih]
    rfl

/-- Of several overloads of the right shape one is taken, and an exact one if there is any. -/
theorem bestCandidate_exact {call : NodeId} {types : List String} {name : String}
    {candidates : List NodeId}
    (derived : ArgumentTypes h typeOf (h.program.arguments call) types) (some_ : candidates ≠ [])
    (shaped : ∀ x ∈ candidates, h.program.hasShape name types.length x) :
    ∃ m ∈ candidates, bestCandidate h typeOf call candidates = .ok (some m) ∧
      ∀ x ∈ candidates, h.program.takes types x → h.program.takes types m := by
  unfold bestCandidate
  split
  · exact absurd rfl some_
  · rename_i only
    refine ⟨only, List.mem_cons_self, rfl, fun x member exactly => ?_⟩
    rwa [List.mem_singleton.mp member] at exactly
  · obtain ⟨m, first⟩ := Option.isSome_iff_exists.mp
      (firstMax_isSome (score h (types.map some)) some_)
    have member := firstMax_mem first
    refine ⟨m, member, ?_, fun x other exactly => ?_⟩
    · rw [derived.mapM]
      exact congrArg Except.ok first
    · have full := (score_eq_length (shaped x other)).mpr exactly
      apply (score_eq_length (shaped m member)).mp
      apply Nat.le_antisymm (score_le types m)
      rw [← full]
      exact le_of_firstMax first x other

/-! ### The search from one type -/

theorem methodCandidates?_isSome {name : String} {arity : Nat} {root t e : NodeId}
    (above : t ∈ h.ancestry root) (method : e ∈ h.program.methodsOf t)
    (shape : h.program.hasShape name arity e) : (methodCandidates? h name arity root).isSome := by
  rw [methodCandidates?, List.findSome?_isSome_iff]
  refine ⟨t, above, ?_⟩
  have found : ((h.program.methodsOf t).filter fun m =>
      (h.program.callable? m).any fun d => d.name == name && d.arity == arity) ≠ [] :=
    List.ne_nil_of_mem (List.mem_filter.mpr ⟨method, shape⟩)
  dsimp only
  rw [if_neg (fun empty => found (List.isEmpty_iff.mp empty))]
  rfl

theorem resolveMethodCall_of_best {call root m : NodeId} {c : MethodCall} {candidates : List NodeId}
    (started : searchRoots h typeOf call c.scope = .ok [root])
    (found : methodCandidates? h c.name c.arguments.length root = some candidates)
    (best : bestCandidate h typeOf call candidates = .ok (some m)) :
    resolveMethodCall h typeOf call c = report h m := by
  simp [resolveMethodCall, started, found, best, orUnresolved, bind, Except.bind]

section

open Hierarchy (build)

variable {p : Program} {call root t e : NodeId} {c : MethodCall} {types : List String}

/-- A call that starts its search at one type and whose argument types are known is resolved as soon
as a type in the ancestry has an exact overload. What it names lies in the nearest type that has any
method of the right name and arity, and is exact itself unless that type has no exact one; then the
exact overload lies farther up. -/
theorem exact_overload_loses_only_farther (kind : p.kind? call = some (.methodCall c))
    (started : searchRoots (build p) (staticType (build p)) call c.scope = .ok [root])
    (derived : ArgumentTypes (build p) (staticType (build p)) c.arguments types)
    (above : t ∈ (build p).ancestry root) (method : e ∈ p.methodsOf t)
    (shape : p.hasShape c.name c.arguments.length e) (exactly : p.takes types e) :
    ∃ nearer owner farther m, (build p).ancestry root = nearer ++ owner :: farther ∧
      (∀ u ∈ nearer, ∀ x ∈ p.methodsOf u, ¬p.hasShape c.name c.arguments.length x) ∧
      m ∈ p.methodsOf owner ∧ p.hasShape c.name c.arguments.length m ∧
      resolve (build p) call = report (build p) m ∧
      (p.takes types m ∨ t ∈ farther ∧
        ∀ x ∈ p.methodsOf owner, p.hasShape c.name c.arguments.length x → ¬p.takes types x) := by
  obtain ⟨candidates, found⟩ := Option.isSome_iff_exists.mp
    (methodCandidates?_isSome (h := build p) above method shape)
  obtain ⟨nearer, owner, farther, split, some_, rfl, before⟩ := methodCandidates?_eq_some found
  have sized : c.arguments.length = types.length := List.Forall₂.length_eq derived
  have asked : ArgumentTypes (build p) (staticType (build p)) (p.arguments call) types := by
    rwa [Program.arguments_methodCall kind]
  have shaped : ∀ x ∈ (p.methodsOf owner).filter (p.hasShape c.name c.arguments.length),
      p.hasShape c.name types.length x := by
    intro x member
    rw [← sized]
    exact (List.mem_filter.mp member).2
  obtain ⟨m, member, best, exact_⟩ := bestCandidate_exact (h := build p) asked some_ shaped
  obtain ⟨declared, shapeM⟩ := List.mem_filter.mp member
  refine ⟨nearer, owner, farther, m, split, before, declared, shapeM, ?_, ?_⟩
  · rw [resolve_methodCall (h := build p) kind]
    exact resolveMethodCall_of_best started found best
  · by_cases chosen : p.takes types m
    · exact .inl chosen
    · have lost : ∀ x ∈ p.methodsOf owner, p.hasShape c.name c.arguments.length x →
          ¬p.takes types x :=
        fun x here shapeX taken => chosen (exact_ x (List.mem_filter.mpr ⟨here, shapeX⟩) taken)
      refine .inr ⟨?_, lost⟩
      -- `t` has an exact overload: it is neither before the owner nor the owner itself
      rw [split] at above
      rcases List.mem_append.mp above with early | late
      · exact absurd shape (before t early e method)
      · apply (List.mem_cons.mp late).resolve_left
        rintro rfl
        exact lost e method shape exactly

/-- A class `A` with `m(String)`, and a class `B` below it with `m(int)`, which calls `this.m` with
a string. -/
def spreadOverloads : Program :=
  Program.empty
    |>.addUnit { path := "A.java" }
    |>.append ⟨0⟩ (.type { kind := .classType, name := "A" }) .unknown
    |>.append ⟨1⟩ (.callable (overload "String")) .unknown
    |>.append ⟨0⟩ (.type { kind := .classType, name := "B", superclass := some "A" }) .unknown
    |>.append ⟨3⟩ (.callable (overload "int")) .unknown
    |>.append ⟨3⟩ (.callable (.method "f")) .unknown
    |>.append ⟨5⟩ (.statement (.other "expression_statement")) .unknown
    |>.append ⟨6⟩ (.methodCall { name := "m", scope := .this }) .unknown
    |>.appendArgument ⟨7⟩ (.expression (.literal "String")) .unknown
where
  overload (typeName : String) : CallableDecl :=
    { kind := .method, name := "m", parameters := [{ typeName, name := "x" }],
      returnType := some "void" }

theorem spreadOverloads_grown : spreadOverloads.Grown := by
  unfold spreadOverloads
  repeat' constructor

theorem spreadOverloads_call :
    spreadOverloads.kind? ⟨7⟩ =
        some (.methodCall { name := "m", scope := .this, arguments := [⟨8⟩] }) ∧
      searchRoots (build spreadOverloads) (staticType (build spreadOverloads)) ⟨7⟩ .this =
        .ok [⟨3⟩] ∧
      ArgumentTypes (build spreadOverloads) (staticType (build spreadOverloads)) [⟨8⟩] ["String"] ∧
      (build spreadOverloads).ancestry ⟨3⟩ = [⟨3⟩, ⟨1⟩] ∧ ⟨2⟩ ∈ spreadOverloads.methodsOf ⟨1⟩ ∧
      spreadOverloads.hasShape "m" 1 ⟨2⟩ ∧ spreadOverloads.takes ["String"] ⟨2⟩ :=
  ⟨rfl, rfl, .cons rfl .nil, rfl, by decide, by decide, by decide⟩

/-- The call names `m(int)`, although `m(String)` is inherited. -/
theorem exact_overload_passed_over :
    spreadOverloads.Grown ∧ ⟨1⟩ ∈ (build spreadOverloads).ancestry ⟨3⟩ ∧
      ⟨2⟩ ∈ spreadOverloads.methodsOf ⟨1⟩ ∧ spreadOverloads.takes ["String"] ⟨2⟩ ∧
      ArgumentTypes (build spreadOverloads) (staticType (build spreadOverloads)) [⟨8⟩] ["String"] ∧
      resolve (build spreadOverloads) ⟨7⟩ = .ok (.declaration ⟨4⟩) ∧
      ¬spreadOverloads.takes ["String"] ⟨4⟩ := by
  obtain ⟨-, -, derived, ancestry, method, -, exactly⟩ := spreadOverloads_call
  exact ⟨spreadOverloads_grown, by simp [ancestry], method, exactly, derived, rfl, by decide⟩

/-- `A` lies farther up than `B`, where no overload is exact. -/
theorem exact_overload_loses_only_farther_spread :
    ∃ nearer owner farther m, [⟨3⟩, ⟨1⟩] = nearer ++ owner :: farther ∧
      m ∈ spreadOverloads.methodsOf owner ∧
      resolve (build spreadOverloads) ⟨7⟩ = report (build spreadOverloads) m ∧
      (spreadOverloads.takes ["String"] m ∨ ⟨1⟩ ∈ farther ∧
        ∀ x ∈ spreadOverloads.methodsOf owner, spreadOverloads.hasShape "m" 1 x →
          ¬spreadOverloads.takes ["String"] x) := by
  obtain ⟨kind, started, derived, ancestry, method, shape, exactly⟩ := spreadOverloads_call
  obtain ⟨nearer, owner, farther, m, split, -, declared, -, resolved, outcome⟩ :=
    exact_overload_loses_only_farther kind started derived (by simp [ancestry]) method shape exactly
  exact ⟨nearer, owner, farther, m, ancestry ▸ split, declared, resolved, outcome⟩

end

end Resolver

end JavaCallGraph
