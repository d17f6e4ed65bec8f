/-!
Why an operation on a program fails, and how the failure reads.
-/

namespace JavaCallGraph

/-- A node of a program, by its number in order of insertion. -/
structure NodeId where
  index : Nat
  deriving DecidableEq, Repr, Hashable, Inhabited

/-- The number after a hash sign. -/
def NodeId.display (id : NodeId) : String := "#" ++ toString id.index

inductive Error where
  /-- No vertex stands for the declaration. -/
  | vertexNotFound (declaration : String)
  | illegalState (reason : String)
  /-- No program point of the declaration holds the call. -/
  | pointNotFound (call declaration : String)
  | unresolved (reason : String)
  /-- A call resolved, but dispatch left nothing to run. -/
  | noDispatchTargets (call : String)
  | parse (reason : String)
  | config (reason : String)
  | io (reason : String)
  /-- A settings text that is not the expected JSON. -/
  | json
  /-- A number that names no node of the program. -/
  | missingNode (id : NodeId)
  /-- The type of a node is defined through itself. -/
  | endlessType (id : NodeId)
  deriving DecidableEq, Repr

namespace Error

def message : Error → String
  | vertexNotFound declaration => "No vertex matching the declaration found: " ++ declaration
  | illegalState reason => "Illegal state: " ++ reason
  | pointNotFound call declaration =>
    "Call " ++ call ++ " could not be located in the program points of " ++ declaration
  | unresolved reason => "Unresolved: " ++ reason
  | noDispatchTargets call => "No dispatch targets: " ++ call
  | parse reason => "Parse error: " ++ reason
  | config reason => "Config error: " ++ reason
  | io reason => "IO error: " ++ reason
  | json => "JSON error"
  | missingNode id => "No node " ++ id.display
  | endlessType id => "The type of node " ++ id.display ++ " depends on itself"

/-- A recoverable failure concerns one call site and never stops a build. -/
def isRecoverable : Error → Bool
  | unresolved _ | pointNotFound _ _ | vertexNotFound _ => true
  | _ => false

end Error

end JavaCallGraph
