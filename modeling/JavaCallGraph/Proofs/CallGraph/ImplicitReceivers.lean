import JavaCallGraph.Proofs.CallGraph.Dispatching
import JavaCallGraph.Proofs.Subtypes
import Mathlib

/-!
Calls with an implicit receiver against calls on `this`.

A call `m()` is widened to the declaration it names and the methods that override it in subtypes of
its owner. A call `this.m()` is widened to what each subtype of the innermost type would run. The
second set may hold two kinds of declarations that the first one lacks: a method that a subtype
inherits from a type which is no subtype of the owner, and a static method that hides the named one.
Every other declaration of the second set is in the first, and a subtype that has the owner among
its superclasses inherits from nowhere else.
-/

namespace JavaCallGraph

open Hierarchy

variable {p : Program} {call type target sub m : NodeId}

/-- A call `m(..)` in the innermost type `type`, whose search finds the non-static `target` there. -/
structure ImplicitCall (p : Program) (call type target : NodeId) : Prop where
  inside : p.enclosingType? call = some type
  names : ∃ c, p.kind? call = some (.methodCall c) ∧ c.scope = .implicit ∧
    Resolver.Nearest (Hierarchy.build p) c.name c.arguments.length type target
  virtual : ¬p.isStatic target

/-- A method in the type that declares it. -/
structure DeclaredIn (p : Program) (m home : NodeId) (signature : String) : Prop where
  isType : p.isType home
  member : m ∈ p.methodsOf home
  signed : p.signature? m = some signature

namespace DeclaredIn

variable {home : NodeId} {signature : String}

theorem enclosingType? (forest : p.Forest) (declared : DeclaredIn p m home signature) :
    p.enclosingType? m = some home :=
  forest.enclosingType?_member declared.isType (List.mem_filter.mp declared.member).1

theorem sameDeclaration (forest : p.Forest) {k : NodeId} (first : DeclaredIn p k home signature)
    (second : DeclaredIn p m home signature) : p.sameDeclaration k m :=
  forest.sameDeclaration_members first.isType (List.mem_filter.mp first.member).1
    (List.mem_filter.mp second.member).1 first.signed second.signed

theorem methodWithSignature?_isSome (declared : DeclaredIn p m home signature) :
    ((Hierarchy.build p).methodWithSignature? home signature).isSome := by
  rw [methodWithSignature?, List.find?_isSome]
  refine ⟨m, declared.member, ?_⟩
  have signed : (Hierarchy.build p).program.signature? m = some signature := declared.signed
  simp [signed]

end DeclaredIn

theorem Resolver.Nearest.declaredIn {name : String} {arity : Nat} (isType : p.isType type)
    (nearest : Resolver.Nearest (Hierarchy.build p) name arity type target) :
    ∃ owner signature, DeclaredIn p target owner signature := by
  obtain ⟨nearer, owner, farther, listed, member, shape, -⟩ := nearest
  obtain ⟨decl, read, -⟩ := Program.hasShape_iff.mp shape
  refine ⟨owner, decl.signature, ?_, member, Program.signature?_eq_some.mpr ⟨decl, read, rfl⟩⟩
  exact (build_typed p).ancestry isType owner (by simp [listed])

/-- A search by signature ends at the first type of the ancestry that declares it. -/
theorem Hierarchy.declaredIn_of_findBySignature? {signature : String} (isType : p.isType sub)
    (signed : p.signature? target = some signature)
    (found : (Hierarchy.build p).findBySignature? sub target = some m) :
    ∃ nearer home farther, (Hierarchy.build p).ancestry sub = nearer ++ home :: farther ∧
      DeclaredIn p m home signature ∧ (Hierarchy.build p).methodWithSignature? home signature = some m ∧
        ∀ t ∈ nearer, (Hierarchy.build p).methodWithSignature? t signature = none := by
  obtain ⟨signature', signed', found⟩ := Option.bind_eq_some_iff.mp found
  cases signed.symm.trans signed'
  obtain ⟨nearer, home, farther, listed, here, before⟩ := List.findSome?_eq_some_iff.mp found
  obtain ⟨member, signedM⟩ := methodWithSignature?_spec here
  have homeIsType := (build_typed p).ancestry isType home (by simp [listed])
  exact ⟨nearer, home, farther, listed, ⟨homeIsType, member, signedM⟩, here, before⟩

/-- The members of an implicit target set are the declaration and the non-static methods of its
signature in proper subtypes of its owner. -/
theorem Hierarchy.below_of_mem_overriddenBy (forest : p.Forest) {owner home : NodeId}
    {signature : String} (named : DeclaredIn p target owner signature)
    (declared : DeclaredIn p m home signature) (member : m ∈ (Hierarchy.build p).overriddenBy target) :
    (Hierarchy.build p).Below home owner ∧ (home = owner ∨ ¬p.isStatic m) := by
  rcases (mem_overriddenBy (named.enclosingType? forest) named.signed).mp member with
    rfl | ⟨home', ⟨below, -⟩, found, virtual⟩
  · have same := (declared.enclosingType? forest).symm.trans (named.enclosingType? forest)
    cases same
    exact ⟨.refl, .inl rfl⟩
  · obtain ⟨member', signed⟩ := methodWithSignature?_spec found
    have declared' : DeclaredIn p m home' signature :=
      ⟨isType_of_below below named.isType, member', signed⟩
    have same := (declared.enclosingType? forest).symm.trans (declared'.enclosingType? forest)
    cases same
    exact ⟨below, .inr virtual⟩

/-- A search that ends at or below the owner, at no hiding method, ends in the implicit target
set. -/
theorem Hierarchy.overriddenBy_covers (forest : p.Forest) {owner home : NodeId} {signature : String}
    (named : DeclaredIn p target owner signature) (declared : DeclaredIn p m home signature)
    (first : (Hierarchy.build p).methodWithSignature? home signature = some m)
    (below : (Hierarchy.build p).Below home owner) (kept : home = owner ∨ ¬p.isStatic m) :
    ∃ k ∈ (Hierarchy.build p).overriddenBy target, p.sameDeclaration k m := by
  by_cases same : home = owner
  · subst same
    exact ⟨target, mem_overriddenBy_self _ target, named.sameDeclaration forest declared⟩
  · have virtual := kept.resolve_left same
    have member : m ∈ (Hierarchy.build p).overriddenBy target :=
      (mem_overriddenBy (named.enclosingType? forest) named.signed).mpr
        (.inr ⟨home, ⟨below, same⟩, first, virtual⟩)
    exact ⟨m, member, p.sameDeclaration_refl m⟩

namespace CallGraph

theorem dispatch_implicit (settings : Settings) (scope : Walk.Scope)
    (implicit : ImplicitCall p call type target) :
    dispatch (.reference p settings) call target scope =
      .ok (collect p ((Hierarchy.build p).overriddenBy target)) := by
  obtain ⟨c, kind, formed, nearest⟩ := implicit.names
  obtain ⟨-, -, -, -, -, shape, -⟩ := nearest
  obtain ⟨decl, read, -⟩ := Program.hasShape_iff.mp shape
  obtain ⟨n, node, kindOf⟩ := Option.map_eq_some_iff.mp kind
  have virtual : decl.isStatic = false := by
    have read : p.callable? target = some decl := read
    simpa [Program.isStatic, read] using implicit.virtual
  have callable : (Basis.reference p settings).program.callable? target = some decl := read
  have present : (Basis.reference p settings).program.node call = .ok n :=
    Program.node_eq_ok.mpr node
  simp only [dispatch, callable, Resolver.orUnresolved, present, bind, Except.bind, virtual, kindOf,
    formed, receiverTypes]
  rfl

/-- An implicit call is widened to the declaration and what overrides it. This covers every
declaration that a subtype of the innermost type would run, if it is declared in the owner of the
named one or, not static, in a subtype of it. No other is in the set. Where the owner is a superclass
of the subtype, the declaration is always found at or below the owner. -/
theorem implicit_call_keeps_targets (grown : p.Grown) (settings : Settings) (scope : Walk.Scope)
    (implicit : ImplicitCall p call type target) :
    dispatch (.reference p settings) call target scope =
        .ok (collect p ((Hierarchy.build p).overriddenBy target)) ∧
      ∃ owner, p.enclosingType? target = some owner ∧
        ∀ sub ∈ (Hierarchy.build p).subclassesOf type, ∀ m,
          (Hierarchy.build p).findBySignature sub target = .ok (some m) →
            ∃ home, p.enclosingType? m = some home ∧
              ((Hierarchy.build p).Below home owner → home = owner ∨ ¬p.isStatic m →
                ∃ k ∈ (Hierarchy.build p).overriddenBy target, p.sameDeclaration k m) ∧
              (m ∈ (Hierarchy.build p).overriddenBy target →
                (Hierarchy.build p).Below home owner ∧ (home = owner ∨ ¬p.isStatic m)) ∧
              ((Hierarchy.build p).Inherits sub owner → (Hierarchy.build p).Below home owner) := by
  have forest := grown.forest
  have isType : p.isType type := List.find?_some implicit.inside
  obtain ⟨c, -, -, nearest⟩ := implicit.names
  obtain ⟨owner, signature, named⟩ := nearest.declaredIn isType
  refine ⟨dispatch_implicit settings scope implicit, owner, named.enclosingType? forest, ?_⟩
  intro sub possible m run
  have subIsType := isType_of_below (mem_subclassesOf.mp possible) isType
  obtain ⟨nearer, home, farther, listed, declared, first, before⟩ :=
    declaredIn_of_findBySignature? subIsType named.signed (findBySignature_eq_ok run).symm
  refine ⟨home, declared.enclosingType? forest, ?_, ?_, ?_⟩
  · exact fun below kept => overriddenBy_covers forest named declared first below kept
  · exact below_of_mem_overriddenBy forest named declared
  · intro inherits
    -- the search stops before it passes the owner, which has the signature itself
    apply below_of_inherits listed inherits
    intro passed
    have missing := before owner passed
    have present := named.methodWithSignature?_isSome
    rw [missing] at present
    cases present

/-- An interface `T` with a call of its own method `m`, and three classes that implement it: `S`
inherits `m` from `B`, `U` has a static `m` and `V` overrides `m`. -/
def implementors : Program :=
  Program.empty
    |>.addUnit { path := "T.java" }
    |>.append ⟨0⟩ (.type { kind := .interfaceType, name := "T" }) .unknown
    |>.append ⟨1⟩ (.callable (.method "m")) .unknown
    |>.append ⟨1⟩ (.callable (.method "f")) .unknown
    |>.append ⟨3⟩ (.statement (.other "expression_statement")) .unknown
    |>.append ⟨4⟩ (.methodCall { name := "m", scope := .implicit }) .unknown
    |>.append ⟨0⟩ (.type { kind := .classType, name := "B" }) .unknown
    |>.append ⟨6⟩ (.callable (.method "m")) .unknown
    |>.append ⟨0⟩
      (.type { kind := .classType, name := "S", superclass := some "B", interfaces := ["T"] })
      .unknown
    |>.append ⟨0⟩ (.type { kind := .classType, name := "U", interfaces := ["T"] }) .unknown
    |>.append ⟨9⟩ (.callable { CallableDecl.method "m" with isStatic := true }) .unknown
    |>.append ⟨0⟩ (.type { kind := .classType, name := "V", interfaces := ["T"] }) .unknown
    |>.append ⟨11⟩ (.callable (.method "m")) .unknown

theorem implementors_grown : implementors.Grown := by
  unfold implementors
  repeat' constructor

theorem implementors_call : ImplicitCall implementors ⟨5⟩ ⟨1⟩ ⟨2⟩ where
  inside := by cbv
  names := by
    refine ⟨{ name := "m", scope := .implicit }, by cbv, rfl, [], ⟨1⟩, [], by cbv, ?_, ?_, ?_⟩
    · decide
    · cbv
    · simp
  virtual := by decide

theorem implementors_subclassesOf :
    (Hierarchy.build implementors).subclassesOf ⟨1⟩ = [⟨1⟩, ⟨8⟩, ⟨9⟩, ⟨11⟩] := by cbv

theorem implementors_overriddenBy :
    (Hierarchy.build implementors).overriddenBy ⟨2⟩ = [⟨2⟩, ⟨12⟩] := by cbv

/-- The overriding method of `V` is a target of the implicit call. -/
theorem implicit_call_keeps_targets_implementors :
    ImplicitCall implementors ⟨5⟩ ⟨1⟩ ⟨2⟩ ∧ ⟨11⟩ ∈ (Hierarchy.build implementors).subclassesOf ⟨1⟩ ∧
      (Hierarchy.build implementors).findBySignature ⟨11⟩ ⟨2⟩ = .ok (some ⟨12⟩) ∧
        ∃ k ∈ (Hierarchy.build implementors).overriddenBy ⟨2⟩,
          implementors.sameDeclaration k ⟨12⟩ := by
  have possible : ⟨11⟩ ∈ (Hierarchy.build implementors).subclassesOf ⟨1⟩ := by
    simp [implementors_subclassesOf]
  have run : (Hierarchy.build implementors).findBySignature ⟨11⟩ ⟨2⟩ = .ok (some ⟨12⟩) := rfl
  have owned : implementors.enclosingType? ⟨2⟩ = some ⟨1⟩ := rfl
  have declared : implementors.enclosingType? ⟨12⟩ = some ⟨11⟩ := rfl
  refine ⟨implementors_call, possible, run, ?_⟩
  obtain ⟨-, owner, owned', all⟩ :=
    implicit_call_keeps_targets implementors_grown {} {} implementors_call
  obtain ⟨home, declared', kept, -⟩ := all ⟨11⟩ possible ⟨12⟩ run
  cases owned.symm.trans owned'
  cases declared.symm.trans declared'
  exact kept (mem_subclassesOf.mp possible) (.inr (by decide))

/-- What `S` inherits from `B` and what hides `m` in `U` would run for `this.m()`, in a hierarchy
without cycles, but they are no targets of `m()`. -/
theorem implicit_call_loses_targets :
    (Hierarchy.build implementors).Acyclic ∧ ImplicitCall implementors ⟨5⟩ ⟨1⟩ ⟨2⟩ ∧
      Resolver.resolve (Hierarchy.build implementors) ⟨5⟩ = .ok (.declaration ⟨2⟩) ∧
      (⟨8⟩ ∈ (Hierarchy.build implementors).subclassesOf ⟨1⟩ ∧
        (Hierarchy.build implementors).findBySignature ⟨8⟩ ⟨2⟩ = .ok (some ⟨7⟩) ∧
        ∀ k ∈ (Hierarchy.build implementors).overriddenBy ⟨2⟩,
          ¬implementors.sameDeclaration k ⟨7⟩) ∧
      ⟨9⟩ ∈ (Hierarchy.build implementors).subclassesOf ⟨1⟩ ∧
        (Hierarchy.build implementors).findBySignature ⟨9⟩ ⟨2⟩ = .ok (some ⟨10⟩) ∧
        ∀ k ∈ (Hierarchy.build implementors).overriddenBy ⟨2⟩,
          ¬implementors.sameDeclaration k ⟨10⟩ := by
  have pairs : supertypePairs implementors (Hierarchy.build implementors).typesByName
      (Hierarchy.build implementors).types =
        [(⟨8⟩, ⟨6⟩), (⟨8⟩, ⟨1⟩), (⟨9⟩, ⟨1⟩), (⟨11⟩, ⟨1⟩)] := by cbv
  have acyclic : (Hierarchy.build implementors).Acyclic := acyclic_of_lt (by rw [pairs]; decide)
  have resolved : Resolver.resolve (Hierarchy.build implementors) ⟨5⟩ = .ok (.declaration ⟨2⟩) := rfl
  have inherited : (Hierarchy.build implementors).findBySignature ⟨8⟩ ⟨2⟩ = .ok (some ⟨7⟩) := rfl
  have hidden : (Hierarchy.build implementors).findBySignature ⟨9⟩ ⟨2⟩ = .ok (some ⟨10⟩) := rfl
  rw [implementors_subclassesOf, implementors_overriddenBy]
  exact ⟨acyclic, implementors_call, resolved, ⟨by simp, inherited, by decide⟩, by simp, hidden,
    by decide⟩

end CallGraph

end JavaCallGraph
