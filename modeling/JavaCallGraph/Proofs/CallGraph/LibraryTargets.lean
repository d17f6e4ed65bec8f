import JavaCallGraph.Proofs.CallGraph.WholePrograms
import Mathlib

/-!
Calls whose declaration is known by its qualified signature alone.

A declaration in a library is reported by its signature, and found again under the key of that
signature. The key forgets the package, the outer types and how parameter types are written, so it
leads to the first callable that shares it. Where all that share a key count as one declaration, a
call reported by signature is linked as if the declaration itself had been reported.
-/

namespace JavaCallGraph

theorem Program.signature?_of_same {p : Program} {a b : NodeId} (same : p.sameDeclaration a b) :
    p.signature? a = p.signature? b := by
  simp only [Program.sameDeclaration, Bool.or_eq_true, beq_iff_eq, Bool.and_eq_true] at same
  rcases same with rfl | ⟨⟨⟨-, signed⟩, -⟩, -⟩
  · rfl
  · exact signed

/-- Every callable that has the key of a signature counts as the same declaration as `d`. -/
def Program.KeyIdentifies (p : Program) (key : String) (d : NodeId) : Prop :=
  ∀ c ∈ p.ids, p.hasKey key c → p.sameDeclaration c d

theorem Program.KeyIdentifies.same {p : Program} {signature : QualifiedSignature} {c d : NodeId}
    (identifies : p.KeyIdentifies signature.key d) (keyed : p.hasKey signature.key c) :
    p.sameDeclaration c d := by
  obtain ⟨decl, read⟩ := Option.isSome_iff_exists.mp (Program.isCallable_of_hasKey keyed)
  exact identifies c (Program.mem_ids.mpr (Program.has_of_callable? read)) keyed

theorem Program.hasKey_of_signed {p : Program} {d : NodeId} {signature : QualifiedSignature}
    (signed : p.qualifiedSignature? d = some signature) : p.hasKey signature.key d := by
  simp [Program.hasKey, signed]

/-- A declaration with a qualified signature is found again, or another of its key. -/
theorem Hierarchy.lookupBySignature?_of_signed {p : Program} (forest : p.Forest) {d : NodeId}
    {signature : QualifiedSignature} (signed : p.qualifiedSignature? d = some signature) :
    ∃ first, (Hierarchy.build p).lookupBySignature? signature = some first ∧
      p.hasKey signature.key first := by
  have keyed := Program.hasKey_of_signed signed
  obtain ⟨decl, read⟩ := Option.isSome_iff_exists.mp (Program.isCallable_of_hasKey keyed)
  obtain ⟨u, unit, below⟩ := forest.exists_unit_above (Program.has_of_callable? read)
  have listed : d ∈ p.allUnder p.units := List.mem_flatMap.mpr ⟨u, unit, below⟩
  rw [Hierarchy.lookupBySignature?_build]
  obtain ⟨first, found⟩ := Option.isSome_iff_exists.mp (List.find?_isSome.mpr ⟨d, listed, keyed⟩)
  exact ⟨first, found, List.find?_some found⟩

theorem Resolver.signed_of_report {h : Hierarchy} {d : NodeId} {signature : QualifiedSignature}
    (reported : Resolver.report h d = .ok (.signature signature)) :
    h.program.qualifiedSignature? d = some signature := by
  unfold Resolver.report at reported
  split at reported
  · cases signed : h.program.qualifiedSignature? d with
    | none => simp [signed, Resolver.orUnresolved, Resolver.unresolved, Except.map] at reported
    | some s =>
      simp only [signed, Resolver.orUnresolved, Except.map] at reported
      cases reported
      rfl
  · cases reported

namespace CallGraph

variable {p : Program} {settings : Settings} {call d first named : NodeId} {scope : Walk.Scope}
  {signature : QualifiedSignature}

/-! ### Widening what was found by key -/

/-- Where the resolver finds types to search, so does the dispatcher. -/
theorem receiverTypes_of_searchRoots (settings : Settings)
    (agree : scope.currentType? = p.enclosingType? call)
    {form : CallScope} {roots : List NodeId}
    (started : Resolver.searchRoots (Hierarchy.build p) (Resolver.staticType (Hierarchy.build p))
      call form = .ok roots) :
    ∃ types?, receiverTypes (.reference p settings) call scope form = .ok types? := by
  cases form with
  | implicit => exact ⟨none, rfl⟩
  | this =>
    obtain ⟨t, enclosing, -⟩ := bind_eq_ok.mp started
    have current := agree.trans (Resolver.orUnresolved_eq_ok.mp enclosing)
    exact ⟨_, bind_eq_ok.mpr ⟨t, Resolver.orUnresolved_eq_ok.mpr current, rfl⟩⟩
  | qualifiedThis name =>
    obtain ⟨t, resolved, -⟩ := bind_eq_ok.mp started
    exact ⟨_, bind_eq_ok.mpr ⟨t, resolved, rfl⟩⟩
  | super =>
    obtain ⟨t, enclosing, started⟩ := bind_eq_ok.mp started
    obtain ⟨parent, above, -⟩ := bind_eq_ok.mp started
    have current := agree.trans (Resolver.orUnresolved_eq_ok.mp enclosing)
    exact ⟨_, bind_eq_ok.mpr ⟨t, Resolver.orUnresolved_eq_ok.mpr current,
      bind_eq_ok.mpr ⟨parent, above, rfl⟩⟩⟩
  | qualifiedSuper name =>
    obtain ⟨t, resolved, started⟩ := bind_eq_ok.mp started
    obtain ⟨start, above, -⟩ := bind_eq_ok.mp started
    exact ⟨_, bind_eq_ok.mpr ⟨t, resolved, bind_eq_ok.mpr ⟨start, above, rfl⟩⟩⟩
  | expression receiver =>
    obtain ⟨t, typed, -⟩ := bind_eq_ok.mp started
    exact ⟨_, bind_eq_ok.mpr ⟨t, typed, rfl⟩⟩

/-- A method call that names something can be widened, whatever callable it is widened from. -/
theorem dispatch_of_names (settings : Settings) (names : Names p call named)
    (agree : scope.currentType? = p.enclosingType? call) (callable : p.isCallable first) :
    ∃ result, dispatch (.reference p settings) call first scope = .ok result := by
  obtain ⟨c, roots, root, kindAt, started, -, -⟩ := names
  obtain ⟨decl, read⟩ := Option.isSome_iff_exists.mp callable
  obtain ⟨n, readCall, kindOf⟩ := Option.map_eq_some_iff.mp kindAt
  have isCallable : Resolver.orUnresolved (p.describe first ++ " is not callable")
      (p.callable? first) = .ok decl := Resolver.orUnresolved_eq_ok.mpr read
  have current : ∀ t, scope.currentType? = some t → p.isType t := by
    intro t enclosing
    exact List.find?_some (agree.symm.trans enclosing)
  by_cases static : decl.isStatic
  · refine ⟨.targets [first], bind_eq_ok.mpr ⟨decl, isCallable, ?_⟩⟩
    rw [if_pos static]
    rfl
  · obtain ⟨types?, possible⟩ := receiverTypes_of_searchRoots settings agree started
    have widen : ∀ result,
        types?.elim (return collect p ((Hierarchy.build p).overriddenBy first))
          (fun types => return collect p ((← types.mapM fun t =>
            (Hierarchy.build p).findBySignature t first).filterMap id)) = .ok result →
        dispatch (.reference p settings) call first scope = .ok result := by
      intro result widened
      refine bind_eq_ok.mpr ⟨decl, isCallable, ?_⟩
      rw [if_neg static]
      refine bind_eq_ok.mpr ⟨n, Program.node_eq_ok.mpr readCall, ?_⟩
      simp only [kindOf]
      cases types? <;> exact bind_eq_ok.mpr ⟨_, possible, widened⟩
    cases types? with
    | none => exact ⟨_, widen _ rfl⟩
    | some types =>
      -- the types are types of the program, so the search in them does not fail
      have fine : FailsOnlyBy (fun _ => False)
          (types.mapM fun t => (Hierarchy.build p).findBySignature t first) :=
        .mapM fun t member =>
          findBySignature_ne_error (isType_of_receiverTypes current possible t member) first
      cases searched : types.mapM fun t => (Hierarchy.build p).findBySignature t first with
      | ok found => exact ⟨_, widen _ (bind_eq_ok.mpr ⟨found, searched, rfl⟩)⟩
      | error e => exact (fine e searched).elim

/-- Widening from a declaration that counts as the named one reaches the named one. -/
theorem Widened.reaches_same (forest : p.Forest) (names : Names p call named)
    (same : p.sameDeclaration first named)
    (agree : scope.currentType? = p.enclosingType? call) {result : Dispatch}
    (widened : Widened p settings call first scope result) :
    ∃ reached, result = .targets reached ∧
      ∃ m ∈ reached, p.SignaturesDetermine → p.sameDeclaration m named := by
  cases widened with
  | static => exact ⟨[first], rfl, first, List.mem_singleton_self _, fun _ => same⟩
  | implicit =>
    obtain ⟨reached, collected, m, kept, sameFirst⟩ :=
      collect_reaches (p := p) (Hierarchy.mem_overriddenBy_self (Hierarchy.build p) first)
    exact ⟨reached, collected, m, kept, fun _ => Program.sameDeclaration_trans sameFirst same⟩
  | @receiver c types kindAt possible =>
    -- the search goes by signature, so it cannot tell the two apart
    have alike : ∀ t, (Hierarchy.build p).findBySignature? t first =
        (Hierarchy.build p).findBySignature? t named := by
      intro t
      have signatures : (Hierarchy.build p).program.signature? first =
        (Hierarchy.build p).program.signature? named := Program.signature?_of_same same
      simp only [Hierarchy.findBySignature?, signatures]
    simp only [alike]
    exact (Widened.receiver kindAt possible).reaches forest names fun t current =>
      agree.symm.trans current

/-! ### Targets of a call that is reported by signature -/

theorem declarationOf_signature {kind : CallKind} (plain : kind ≠ .constructorInvocation)
    (found : (Hierarchy.build p).lookupBySignature? signature = some first) :
    declarationOf (.reference p settings) kind (.signature signature) = .ok first := by
  rw [declarationOf, if_neg plain]
  exact Resolver.orUnresolved_eq_ok.mpr found

section

variable (settings scope)
  (resolved : Resolver.resolve (Hierarchy.build p) call = .ok (.signature signature))

include resolved

theorem targets_creation_by_signature
    (found : (Hierarchy.build p).lookupBySignature? signature = some first) :
    targets (.reference p settings) call .objectCreation scope = .ok (.targets [first]) :=
  bind_eq_ok.mpr ⟨_, resolved, bind_eq_ok.mpr ⟨first, declarationOf_signature (by decide) found, rfl⟩⟩

theorem targets_invocation_by_signature :
    ∃ e, targets (.reference p settings) call .constructorInvocation scope = .error e := by
  have answered : (Basis.reference p settings).facts.resolve call = .ok (.signature signature) :=
    resolved
  rw [targets, answered]
  exact ⟨_, rfl⟩

/-- A method call is widened from what its signature leads to. If that counts as the declaration the
call names, the call has targets, and the declaration is one of them. -/
theorem targets_method_by_signature (forest : p.Forest)
    (isCall : p.callKind? call = some .methodCall)
    (agree : scope.currentType? = p.enclosingType? call)
    (found : (Hierarchy.build p).lookupBySignature? signature = some first)
    (keyed : p.hasKey signature.key first) (identifies : p.KeyIdentifies signature.key d) :
    ∃ reached, targets (.reference p settings) call .methodCall scope = .ok (.targets reached) ∧
      (∀ m ∈ reached, p.signature? m = p.signature? d) ∧
      (p.SignaturesDetermine → ∃ m ∈ reached, p.sameDeclaration m d) ∧
      ((p.callable? first).any (·.isStatic) → reached = [first]) := by
  obtain ⟨named, names, reported⟩ := names_of_reported isCall resolved
  have sameFirst : p.sameDeclaration first d := identifies.same keyed
  have sameNamed : p.sameDeclaration named d :=
    identifies.same (Program.hasKey_of_signed (Resolver.signed_of_report reported))
  have same : p.sameDeclaration first named :=
    Program.sameDeclaration_trans sameFirst (Program.sameDeclaration_symm sameNamed)
  obtain ⟨result, dispatched⟩ :=
    dispatch_of_names settings names agree (Program.isCallable_of_hasKey keyed)
  have widened := dispatch_widened dispatched
  obtain ⟨reached, rfl, m, member, reaches⟩ := widened.reaches_same forest names same agree
  refine ⟨reached, ?_, ?_, ?_, ?_⟩
  · exact bind_eq_ok.mpr ⟨_, resolved, bind_eq_ok.mpr
      ⟨first, declarationOf_signature (by decide) found, dispatched⟩⟩
  · intro m listed
    rw [widened.signature? listed]
    exact Program.signature?_of_same sameFirst
  · intro determine
    exact ⟨m, member, Program.sameDeclaration_trans (reaches determine) sameNamed⟩
  · intro static
    obtain ⟨decl, read, isStatic⟩ := (Option.any_eq_true _ _).mp static
    obtain ⟨decl', read', dispatched⟩ := bind_eq_ok.mp dispatched
    cases (Resolver.orUnresolved_eq_ok.mp read').symm.trans read
    rw [if_pos isStatic] at dispatched
    cases dispatched
    rfl

end

/-! ### Links of a call that is reported by signature -/

theorem Leads.same {g : CallGraph} (sound : Sound p g) {caller a b : NodeId} {edge : Edge}
    {link : Link} (same : p.sameDeclaration a b) (leads : Leads p g caller edge a link) :
    Leads p g caller edge b link := by
  obtain ⟨tail, head, leaves, enters, rfl⟩ := leads
  rw [vertex?_congr sound same] at enters
  exact ⟨tail, head, leaves, enters, rfl⟩

theorem exists_leads {Leads : NodeId → Link → Prop} {reached : List NodeId} {links : List Link}
    (each : List.Forall₂ Leads reached links) {m : NodeId} (member : m ∈ reached) :
    ∃ l ∈ links, Leads m l := by
  induction each with
  | nil => cases member
  | @cons t l _ _ leads _ ih =>
    rcases List.mem_cons.mp member with rfl | later
    · exact ⟨l, List.mem_cons_self, leads⟩
    · obtain ⟨l', listed, leads'⟩ := ih later
      exact ⟨l', List.mem_cons_of_mem _ listed, leads'⟩

/-- How a call is linked whose declaration `d` is known by a signature that leads to `first`. A
creation has one link, to the vertex of `d`. A method call is widened as usual: all its targets have
the signature of `d`, one of them is `d`, and a static method has no other. An explicit invocation of
a constructor is not linked. -/
def LinkedBySignature (p : Program) (g : CallGraph) (first d caller : NodeId) (edge : Edge)
    (outcome : Outcome) (links : List Link) : Prop :=
  match edge.kind with
  | .objectCreation => outcome = .linked 1 ∧ ∃ l, links = [l] ∧ Leads p g caller edge d l
  | .constructorInvocation => outcome.isUnresolved ∧ links = []
  | .methodCall => ∃ reached, outcome = .linked reached.length ∧
      List.Forall₂ (Leads p g caller edge) reached links ∧
      (∀ m ∈ reached, p.signature? m = p.signature? d) ∧
      (p.SignaturesDetermine → ∃ l ∈ links, Leads p g caller edge d l) ∧
      ((p.callable? first).any (·.isStatic) → ∃ l, links = [l] ∧ Leads p g caller edge d l)

theorem linkedBySignature_entryIn (settings : Settings) (forest : p.Forest) {g : CallGraph}
    (sound : Sound p g)
    (enrolled : ∀ d, p.isCallable d → ∃ v, g.vertex? p d = some v) {caller : NodeId}
    {kind : CallKind} {point : ProgramPoint} (isCall : p.callKind? call = some kind)
    (calls : p.isCallable caller) (agree : scope.currentType? = p.enclosingType? call)
    (located : (PointIndex.build p).containing caller call = .ok point)
    (resolved : Resolver.resolve (Hierarchy.build p) call = .ok (.signature signature))
    (found : (Hierarchy.build p).lookupBySignature? signature = some first)
    (keyed : p.hasKey signature.key first) (identifies : p.KeyIdentifies signature.key d) :
    let e := entryIn (.reference p settings) g caller call kind scope
    LinkedBySignature p g first d caller { kind, call, point } e.report.outcome e.links := by
  have sameFirst : p.sameDeclaration first d := identifies.same keyed
  -- a single target is `first`, whose vertex is that of `d`
  have alone : ∀ {edge : Edge} {links : List Link},
      List.Forall₂ (Leads p g caller edge) [first] links →
      ∃ l, links = [l] ∧ Leads p g caller edge d l := by
    intro edge links each
    cases each with
    | cons leads rest =>
      cases rest
      exact ⟨_, rfl, leads.same sound sameFirst⟩
  cases kind with
  | objectCreation =>
    have linked := entryIn_enrolled forest enrolled isCall calls
      (targets_creation_by_signature settings scope resolved found)
    simp only [located] at linked
    exact ⟨linked.1, alone linked.2⟩
  | constructorInvocation =>
    obtain ⟨e, failed⟩ := targets_invocation_by_signature settings scope resolved
    simp only [LinkedBySignature, entryIn, failed]
    exact ⟨rfl, trivial⟩
  | methodCall =>
    obtain ⟨reached, targets, signatures, named, static⟩ := targets_method_by_signature settings
      scope resolved forest isCall agree found keyed identifies
    have linked := entryIn_enrolled forest enrolled isCall calls targets
    simp only [located] at linked
    obtain ⟨outcome, each⟩ := linked
    refine ⟨reached, outcome, each, signatures, ?_, ?_⟩
    · intro determine
      obtain ⟨m, member, same⟩ := named determine
      obtain ⟨l, listed, leads⟩ := exists_leads each member
      exact ⟨l, listed, leads.same sound same⟩
    · intro isStatic
      rw [static isStatic] at each
      exact alone each

/-- A qualified signature leads to the first callable with its key. If all callables with that key
count as the declaration that the signature was taken from, so does the callable found, and in a
build of the whole program every call with a point that is reported by the signature alone is linked
accordingly. -/
theorem signature_leads_back (grown : p.Grown) (signed : p.qualifiedSignature? d = some signature) :
    ∃ first, (Hierarchy.build p).lookupBySignature? signature = some first ∧
      ((p.allUnder p.units).filter (p.hasKey signature.key)).head? = some first ∧
      (p.KeyIdentifies signature.key d → p.sameDeclaration first d ∧
        ∀ settings g, build (.reference p settings) empty p.units = (g, .ok ()) →
          ∀ r links caller point, (r, links) ∈ g.groups → r.caller = some caller →
            (PointIndex.build p).containing caller r.call = .ok point →
            Resolver.resolve (Hierarchy.build p) r.call = .ok (.signature signature) →
            LinkedBySignature p g first d caller { kind := r.kind, call := r.call, point } r.outcome
              links) := by
  have forest := grown.forest
  obtain ⟨first, found, keyed⟩ := Hierarchy.lookupBySignature?_of_signed forest signed
  refine ⟨first, found, ?_, fun identifies => ⟨identifies.same keyed, ?_⟩⟩
  · rw [List.head?_filter, ← Hierarchy.lookupBySignature?_build, found]
  · intro settings g built r links caller point member called located resolved
    obtain ⟨scope, visited, isCall, calls, entry⟩ := entry_of_group forest built member called
    have agree := currentType?_of_visited forest (List.Subset.refl _) visited
    have linked := linkedBySignature_entryIn settings forest
      ((sound_empty p).addVertices p.units) (fun _ => vertex?_of_callable forest) isCall calls agree
      located resolved found keyed identifies
    rw [entry] at linked
    unfold LinkedBySignature
    rw [leads_congr (vertex?_build forest built)]
    exact linked

/-- Two libraries declare a class `L` with a constructor of one parameter, written as `A<B>` in the
second. A source in the package of the second library creates an `L`. -/
def twoLibraries (parameter : String) : Program :=
  let declared (typeName : String) : CallableDecl :=
    { kind := .constructor, name := "L", parameters := [{ typeName, name := "a" }] }
  Program.empty
    |>.addUnit { path := "p/L.java", package := some "p", origin := .library }
    |>.append ⟨0⟩ (.type { kind := .classType, name := "L" }) .unknown
    |>.append ⟨1⟩ (.callable (declared parameter)) .unknown
    |>.addUnit { path := "q/L.java", package := some "q", origin := .library }
    |>.append ⟨3⟩ (.type { kind := .classType, name := "L" }) .unknown
    |>.append ⟨4⟩ (.callable (declared "A<B>")) .unknown
    |>.addUnit { path := "q/A.java", package := some "q" }
    |>.append ⟨6⟩ (.type { kind := .classType, name := "A" }) .unknown
    |>.append ⟨7⟩ (.callable (.method "f")) .unknown
    |>.append ⟨8⟩ (.statement (.other "expression_statement")) .unknown
    |>.append ⟨9⟩ (.objectCreation { typeName := "L" }) .unknown
    |>.appendArgument ⟨10⟩ (.expression .other) .unknown

theorem twoLibraries_grown (parameter : String) : (twoLibraries parameter).Grown := by
  unfold twoLibraries
  apply Program.Grown.appendArgument
  repeat' first | apply Program.Grown.append | apply Program.Grown.addUnit | simp [Program.has_iff]
  exact .empty

def secondLibrary : QualifiedSignature :=
  { owner := "q.L", name := "L", parameterTypes := ["A<B>"] }

theorem signed_twoLibraries (parameter : String) :
    (twoLibraries parameter).qualifiedSignature? ⟨5⟩ = some secondLibrary := by
  cbv

/-- The link of the creation ends at the constructor of the first library. -/
def twoLibrariesLink : Link :=
  ⟨⟨8⟩, ⟨2⟩, { kind := .objectCreation, call := ⟨10⟩, point := ⟨0, ⟨8⟩, ⟨9⟩⟩ }⟩

def equalLibrariesGraph : CallGraph where
  vertices := [⟨⟨2⟩, .constructor, "L(A<B>)", some "L"⟩, ⟨⟨8⟩, .method, "f()", some "A"⟩]
  bySignature := ⟨[("L(A<B>)", [⟨⟨2⟩, .constructor, "L(A<B>)", some "L"⟩]),
    ("f()", [⟨⟨8⟩, .method, "f()", some "A"⟩])]⟩
  links := [twoLibrariesLink]
  reports := [⟨⟨10⟩, .objectCreation, some ⟨8⟩, .linked 1⟩]
  built := true

set_option maxRecDepth 4000 in
/-- Where the two constructors are written alike, they count as one declaration, and the creation of
the second class is linked to its vertex. -/
theorem signature_leads_back_equalLibraries :
    ∃ first, (Hierarchy.build (twoLibraries "A<B>")).lookupBySignature? secondLibrary = some first ∧
      (twoLibraries "A<B>").sameDeclaration first ⟨5⟩ ∧
      LinkedBySignature (twoLibraries "A<B>") equalLibrariesGraph first ⟨5⟩ ⟨8⟩ twoLibrariesLink.edge
        (.linked 1) [twoLibrariesLink] := by
  have built : build (.reference (twoLibraries "A<B>") {}) empty (twoLibraries "A<B>").units =
      (equalLibrariesGraph, .ok ()) := by
    have forest := (twoLibraries_grown "A<B>").forest
    rw [build_eq forest rfl fun _ unit => (forest.mem_units.mp unit).1]
    cbv
  have member : (⟨⟨10⟩, .objectCreation, some ⟨8⟩, .linked 1⟩, [twoLibrariesLink]) ∈
      equalLibrariesGraph.groups := by decide
  have identifies : (twoLibraries "A<B>").KeyIdentifies secondLibrary.key ⟨5⟩ := by
    have checked : (twoLibraries "A<B>").ids.all (fun c =>
        !(twoLibraries "A<B>").hasKey secondLibrary.key c ||
          (twoLibraries "A<B>").sameDeclaration c ⟨5⟩) = true := by cbv
    intro c contained keyed
    simpa [keyed] using List.all_eq_true.mp checked c contained
  have located : (PointIndex.build (twoLibraries "A<B>")).containing ⟨8⟩ ⟨10⟩ =
      .ok ⟨0, ⟨8⟩, ⟨9⟩⟩ := by cbv
  have resolved : Resolver.resolve (Hierarchy.build (twoLibraries "A<B>")) ⟨10⟩ =
      .ok (.signature secondLibrary) := by cbv
  obtain ⟨first, found, -, linked⟩ :=
    signature_leads_back (twoLibraries_grown "A<B>") (signed_twoLibraries "A<B>")
  obtain ⟨same, links⟩ := linked identifies
  exact ⟨first, found, same, links {} _ built _ _ ⟨8⟩ _ member rfl located resolved⟩

def twoLibrariesGraph : CallGraph where
  vertices := [⟨⟨2⟩, .constructor, "L(A)", some "L"⟩, ⟨⟨5⟩, .constructor, "L(A<B>)", some "L"⟩,
    ⟨⟨8⟩, .method, "f()", some "A"⟩]
  bySignature := ⟨[("L(A)", [⟨⟨2⟩, .constructor, "L(A)", some "L"⟩]),
    ("L(A<B>)", [⟨⟨5⟩, .constructor, "L(A<B>)", some "L"⟩]),
    ("f()", [⟨⟨8⟩, .method, "f()", some "A"⟩])]⟩
  links := [twoLibrariesLink]
  reports := [⟨⟨10⟩, .objectCreation, some ⟨8⟩, .linked 1⟩]
  built := true

/-- Where the two constructors are written differently but have the same key, the signature of the
second leads to the first. They are different declarations with vertices of their own, and the
creation of the second class is linked to the constructor of the first. -/
theorem signature_leads_elsewhere :
    (twoLibraries "A").qualifiedSignature? ⟨5⟩ = some secondLibrary ∧
      (Hierarchy.build (twoLibraries "A")).lookupBySignature? secondLibrary = some ⟨2⟩ ∧
      (twoLibraries "A").sameDeclaration ⟨2⟩ ⟨5⟩ = false ∧
      Resolver.resolve (Hierarchy.build (twoLibraries "A")) ⟨10⟩ = .ok (.signature secondLibrary) ∧
      build (.reference (twoLibraries "A") {}) empty (twoLibraries "A").units =
        (twoLibrariesGraph, .ok ()) ∧
      twoLibrariesGraph.links.map (·.target) = [⟨2⟩] := by
  refine ⟨signed_twoLibraries "A", ?lookedUp, ?distinct, ?resolved, ?built, rfl⟩
  case built =>
    have forest := (twoLibraries_grown "A").forest
    rw [build_eq forest rfl fun _ unit => (forest.mem_units.mp unit).1]
    cbv
  all_goals cbv

end CallGraph

end JavaCallGraph
