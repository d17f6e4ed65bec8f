import JavaCallGraph.Closure
import JavaCallGraph.Index
import JavaCallGraph.Program.Naming

/-!
The class hierarchy of a program: which declared types extend or implement which, and the
declarations that virtual calls may run.

Supertypes are resolved by simple name. The direct relation may be cyclic; closures are breadth
first and visit each type once, so they end whatever the clauses say.
-/

namespace JavaCallGraph

/-- The type declarations of all units and their direct relations. -/
structure Hierarchy where
  program : Program
  /-- Type declarations in visiting order. -/
  types : List NodeId
  typesByName : Index String NodeId
  /-- Direct supertypes declared in the program, superclass first. -/
  supertypes : Index NodeId NodeId
  /-- Direct subtypes, in visiting order. -/
  subtypes : Index NodeId NodeId
  /-- Callables by the key of their qualified signature. -/
  bySignature : Index String NodeId

namespace Hierarchy

/-- Pick the declaration that a name written at `context` means, out of those with that simple
name: one nested in or enclosing the context, then one in the same unit, then one in the same
package, then the first. -/
def choose (p : Program) (context : NodeId) : List NodeId → Option NodeId
  | [] => none
  | [only] => some only
  | candidates =>
    let enclosing := p.lineage context
    let nested := candidates.find? fun c =>
      (p.parent? c).any fun q => enclosing.contains q || enclosing.contains c
    let sameUnit := candidates.find? fun c => p.unitOf? c == p.unitOf? context
    let package := fun id => (p.unit? id).bind (·.package)
    let samePackage := candidates.find? fun c => package c == package context
    nested <|> sameUnit <|> samePackage <|> candidates.head?

def namedTypes (p : Program) (types : List NodeId) : List (String × NodeId) :=
  types.filterMap fun t => (p.typeDecl? t).map fun d => (d.name, t)

/-- The names in a type's `extends` and `implements` clauses, superclass first. -/
def declaredSupertypes (p : Program) (type : NodeId) : List String :=
  match p.typeDecl? type with
  | some d => d.superclass.toList ++ d.interfaces
  | none => []

/-- Pairs of a type and a declared supertype, other than itself. -/
def supertypePairs (p : Program) (byName : Index String NodeId) (types : List NodeId) :
    List (NodeId × NodeId) :=
  types.flatMap fun t =>
    (declaredSupertypes p t).filterMap fun name =>
      match choose p t (byName.get (TypeName.simple name)) with
      | some s => if s = t then none else some (t, s)
      | none => none

def build (p : Program) : Hierarchy :=
  let all := p.allUnder p.units
  let types := all.filter p.isType
  let typesByName := Index.ofPairs (namedTypes p types)
  let pairs := supertypePairs p typesByName types
  { program := p
    types
    typesByName
    supertypes := Index.ofPairs pairs
    subtypes := Index.ofPairs (pairs.map fun (t, s) => (s, t))
    bySignature := Index.ofPairs <|
      all.filterMap fun id => (p.qualifiedSignature? id).map fun s => (s.key, id) }

variable (h : Hierarchy)

/-- Type declarations with the simple name of `name`. -/
def typesNamed (name : String) : List NodeId := h.typesByName.get (TypeName.simple name)

/-- The declaration that a type name written at `context` means. -/
def resolveTypeName? (context : NodeId) (name : String) : Option NodeId :=
  choose h.program context (h.typesNamed name)

/-- As `resolveTypeName?`, for a context that may not be a node: an ambiguous name needs one. -/
def resolveTypeNameAt (context : NodeId) (name : String) : Except Error (Option NodeId) :=
  if 1 < (h.typesNamed name).length && !h.program.has context then .error (.missingNode context)
  else .ok (h.resolveTypeName? context name)

/-- Direct supertypes, superclass first. -/
def supertypesOf (type : NodeId) : List NodeId := h.supertypes.get type

/-- The direct superclass, when declared in the program. -/
def parentOf? (type : NodeId) : Option NodeId := do
  let decl ← h.program.typeDecl? type
  let name ← decl.superclass
  let first ← (h.supertypesOf type).head?
  if h.program.simpleName? first = some (TypeName.simple name) then some first else none

/-- A type and its superclasses up to the first missing or repeated one. -/
def superclassChain : (bound : Nat) → (seen : List NodeId) → Option NodeId → List NodeId
  | 0, seen, _ => seen
  | _ + 1, seen, none => seen
  | bound + 1, seen, some t =>
    if seen.contains t then seen else superclassChain bound (seen ++ [t]) (h.parentOf? t)

/-- A type, its superclass chain, then every other supertype of these, breadth first. -/
def ancestry (type : NodeId) : List NodeId :=
  let chain := h.superclassChain (h.types.length + 2) [] (some type)
  Closure.serve h.supertypesOf (chain.length + h.types.length + 1) chain chain

/-- A type and everything that transitively extends or implements it, breadth first. -/
def subclassesOf (type : NodeId) : List NodeId :=
  Closure.drain h.subtypes.get (h.subtypes.size + 1) [type] []

/-- The first method of a type with a given signature. -/
def methodWithSignature? (type : NodeId) (signature : String) : Option NodeId :=
  (h.program.methodsOf type).find? fun m => h.program.signature? m == some signature

/-- A declaration and the methods that override it in subtypes of its owner. -/
def overriddenBy (decl : NodeId) : List NodeId :=
  match h.program.enclosingType? decl, h.program.signature? decl with
  | some owner, some signature =>
    ((h.subclassesOf owner).drop 1).foldl (fun result sub =>
      match h.methodWithSignature? sub signature with
      | some m =>
        if (h.program.callable? m).any (·.isStatic) || result.contains m then result
        else result ++ [m]
      | none => result) [decl]
  | _, _ => [decl]

/-- As `overriddenBy`, for a number that may not be a node: looking for an owner needs one. -/
def overriddenByAt (decl : NodeId) : Except Error (List NodeId) := do
  let _ ← h.program.node decl
  return h.overriddenBy decl

/-- The declaration with the signature of `decl` that an instance of `type` would run. -/
def findBySignature? (type decl : NodeId) : Option NodeId := do
  let signature ← h.program.signature? decl
  (h.ancestry type).findSome? fun t => h.methodWithSignature? t signature

/-- As `findBySignature?`, for a type that may not be a node: looking for a signature among its
members needs one. -/
def findBySignature (type decl : NodeId) : Except Error (Option NodeId) :=
  if h.program.isCallable decl && !h.program.has type then .error (.missingNode type)
  else .ok (h.findBySignature? type decl)

/-- The first declaration with the key of a qualified signature. -/
def lookupBySignature? (signature : QualifiedSignature) : Option NodeId :=
  (h.bySignature.get signature.key).head?

end Hierarchy

/-- The type at which `T.super.m()` starts its search: `T` itself when it is an interface,
otherwise the superclass of `T`. -/
def qualifiedSuperRoot? (p : Program) (parentOf? : NodeId → Option NodeId) (named : NodeId) :
    Option NodeId :=
  match p.typeDecl? named with
  | some d => if d.kind = .interfaceType then some named else parentOf? named
  | none => none

end JavaCallGraph
