import JavaCallGraph.Facts
import JavaCallGraph.Settings.Basic
import JavaCallGraph.Walk.Scoped

/-!
The declarations that a call may run.

An object creation or constructor invocation runs what it names. A method call is widened to the
declarations that the possible classes of its receiver would run; a static method is never
widened.
-/

namespace JavaCallGraph.CallGraph

/-- What a call graph is built from. -/
structure Basis where
  program : Program
  facts : Facts
  settings : Settings := {}

/-- What widening a call leaves. -/
inductive Dispatch where
  | targets (targets : List NodeId)
  | noTargets
  deriving DecidableEq, Repr

/-- Keep the first of every group of equal declarations. -/
def distinct (p : Program) (kept : List NodeId) : List NodeId → List NodeId
  | [] => kept
  | d :: rest =>
    if kept.any (p.sameDeclaration · d) then distinct p kept rest else distinct p (kept ++ [d]) rest

def collect (p : Program) (candidates : List NodeId) : Dispatch :=
  match distinct p [] candidates with
  | [] => .noTargets
  | kept => .targets kept

variable (s : Basis)

def currentType (call : NodeId) (scope : Walk.Scope) : Except Error NodeId :=
  Resolver.orUnresolved (s.program.describe call ++ " has no enclosing type") scope.currentType?

def noParent {α : Type} (type : NodeId) : Option α → Except Error α :=
  Resolver.orUnresolved ("No parent found for " ++ s.program.describe type)

/-- The possible classes of a receiver; for an implicit one, the overriding methods are asked
for instead. -/
def receiverTypes (call : NodeId) (scope : Walk.Scope) :
    CallScope → Except Error (Option (List NodeId))
  | .implicit => .ok none
  | .this => do return some (s.facts.subclassesOf (← currentType s call scope))
  | .qualifiedThis name => do
    return some (s.facts.subclassesOf (← s.facts.resolveTypeName call name))
  | .super => do
    let type ← currentType s call scope
    return some [← noParent s type (s.facts.parentOf? type)]
  | .qualifiedSuper name => do
    let named ← s.facts.resolveTypeName call name
    return some [← noParent s named (qualifiedSuperRoot? s.program s.facts.parentOf? named)]
  | .expression receiver => do
    return some (s.facts.subclassesOf (← s.facts.staticType receiver))

/-- Widen a method call that names `target`. -/
def dispatch (call target : NodeId) (scope : Walk.Scope) : Except Error Dispatch := do
  let decl ← Resolver.orUnresolved (s.program.describe target ++ " is not callable")
    (s.program.callable? target)
  if decl.isStatic then return .targets [target]
  match (← s.program.node call).kind with
  | .methodCall c =>
    match ← receiverTypes s call scope c.scope with
    | none => return collect s.program (s.facts.overriddenBy target)
    | some types =>
      return collect s.program
        ((← types.mapM fun t => s.facts.findBySignature t target).filterMap id)
  | _ => .error (.illegalState (s.program.describe call ++ " is not a method call"))

/-- The declaration a resolution stands for. -/
def declarationOf (kind : CallKind) : Resolution → Except Error NodeId
  | .declaration decl => .ok decl
  | .signature signature =>
    if kind = .constructorInvocation then
      Resolver.unresolved
        ("Constructor " ++ signature.display ++ " has no declaration in the program")
    else
      Resolver.orUnresolved ("No declaration for " ++ signature.display)
        (s.facts.lookupBySignature? signature)

/-- The declarations that a call may run. -/
def targets (call : NodeId) (kind : CallKind) (scope : Walk.Scope) : Except Error Dispatch := do
  let decl ← declarationOf s kind (← s.facts.resolve call)
  match kind with
  | .methodCall => dispatch s call decl scope
  | _ => return .targets [decl]

end JavaCallGraph.CallGraph
