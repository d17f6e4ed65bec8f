/-!
The two choices a caller has when a call graph is built.
-/

namespace JavaCallGraph

/-- What to do when a virtual call resolves but dispatch leaves no target. -/
inductive ZeroTargets where
  /-- Drop the call site and say so in its report. -/
  | discard
  /-- Stop the build. -/
  | strict
  deriving DecidableEq, Repr, Inhabited

structure Settings where
  zeroTargets : ZeroTargets := .discard
  /-- Attribute calls in non-static field initializers to every constructor of the owning type.
  Otherwise they are call sites of the type. -/
  fieldInitializersToConstructors : Bool := true
  deriving DecidableEq, Repr, Inhabited

end JavaCallGraph
