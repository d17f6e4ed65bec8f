import JavaCallGraph.Program.Node

/-!
What became of each call site of a build.
-/

namespace JavaCallGraph

inductive Outcome where
  | linked (edges : Nat)
  /-- The call belongs to a type and not to a callable; it has no edge. -/
  | typeLevel
  | unresolved (reason : String)
  /-- Resolved, but dispatch left nothing to run. -/
  | noTargets
  /-- Targets were found, but no edge could be anchored. -/
  | dropped (reason : String)
  deriving DecidableEq, Repr, Inhabited

namespace Outcome

def isLinked : Outcome → Bool
  | linked _ => true
  | _ => false

def isUnresolved : Outcome → Bool
  | unresolved _ => true
  | _ => false

def isDropped : Outcome → Bool
  | dropped _ => true
  | _ => false

end Outcome

structure Report where
  call : NodeId
  kind : CallKind
  caller : Option NodeId
  outcome : Outcome
  deriving DecidableEq, Repr, Inhabited

/-- Counts of a graph's parts. -/
structure Stats where
  vertices : Nat
  edges : Nat
  callSites : Nat
  linked : Nat
  typeLevel : Nat
  unresolved : Nat
  noTargets : Nat
  dropped : Nat
  deriving DecidableEq, Repr, Inhabited

end JavaCallGraph
