import JavaCallGraph.Hierarchy

/-!
Which declaration a call names, by name, arity and argument types.

Implicit calls are looked up in the enclosing types, innermost first, and their ancestry;
qualified calls in the static type of their receiver. Of several overloads with the right arity
the one with most matching parameter types wins, the first of them on a tie. A declaration in a
library unit is reported by its qualified signature alone.

Typing a receiver or an argument may again need a resolution. Each rule below takes the typing of
other nodes as a parameter `typeOf`, and `staticType` closes the recursion: a chain of dependent
nodes has no repetition unless it is endless, so it is no longer than the program.
-/

namespace JavaCallGraph

inductive Resolution where
  /-- The declaration, with its body in the program. -/
  | declaration (id : NodeId)
  /-- Only the signature of the target is known. -/
  | signature (signature : QualifiedSignature)
  deriving DecidableEq, Repr

namespace Resolver

/-- A failure that no caller may pass over: the question has no answer at all. -/
def isFatal : Error → Bool
  | .missingNode _ | .endlessType _ => true
  | _ => false

/-- Take a failure for "unknown", unless it is fatal. -/
def orUnknown {α : Type} : Except Error α → Except Error (Option α)
  | .ok a => .ok (some a)
  | .error e => if isFatal e then .error e else .ok none

def unresolved {α : Type} (reason : String) : Except Error α := .error (.unresolved reason)

def orUnresolved {α : Type} (reason : String) : Option α → Except Error α
  | some a => .ok a
  | none => unresolved reason

variable (h : Hierarchy)

/-- The declaration, or its qualified signature if it lives in a library unit. -/
def report (decl : NodeId) : Except Error Resolution :=
  if (h.program.unit? decl).any (·.origin == .library) then
    (orUnresolved ("No signature for " ++ h.program.describe decl)
      (h.program.qualifiedSignature? decl)).map .signature
  else .ok (.declaration decl)

def enclosingType (node : NodeId) : Except Error NodeId :=
  orUnresolved (h.program.describe node ++ " has no enclosing type") (h.program.enclosingType? node)

def superclass (type : NodeId) : Except Error NodeId :=
  orUnresolved ("No parent found for " ++ h.program.describe type) (h.parentOf? type)

/-- The declaration of a type name written at `context`. -/
def resolveTypeName (context : NodeId) (name : String) : Except Error NodeId :=
  orUnresolved ("Type " ++ name ++ " is not declared in the program") (h.resolveTypeName? context name)

/-- As `resolveTypeName`, for a context that may not be a node. -/
def resolveTypeNameAt (context : NodeId) (name : String) : Except Error NodeId := do
  orUnresolved ("Type " ++ name ++ " is not declared in the program")
    (← h.resolveTypeNameAt context name)

/-! ### Variables -/

/-- Declared type of a field of a type. -/
def fieldType? (type : NodeId) (name : String) : Option String :=
  (h.program.fieldsOf type).findSome? fun f =>
    (h.program.fieldDecl? f).bind fun d => if d.names.contains name then some d.typeName else none

/-- Declared type of a field in the ancestry of a type, with the type that declares it. -/
def inheritedFieldType? (type : NodeId) (name : String) : Option (String × NodeId) :=
  (h.ancestry type).findSome? fun t => (fieldType? h t name).map (·, t)

/-- Declared type of a local variable anywhere below a callable. -/
def localType? (callable : NodeId) (name : String) : Option String :=
  (h.program.descendants callable).findSome? fun d =>
    match h.program.kind? d with
    | some (.statement (.localVariable typeName names)) =>
      if names.contains name then some typeName else none
    | _ => none

/-- What one enclosing node says about a variable: locals and parameters of a callable, fields of
a type and its ancestry. -/
def variableTypeIn? (name : String) (scope : NodeId) : Option (String × NodeId) :=
  match h.program.kind? scope with
  | some (.callable decl) =>
    match localType? h scope name with
    | some typeName => some (typeName, scope)
    | none => (decl.parameters.find? (·.name == name)).map fun q => (q.typeName, scope)
  | some (.type _) => inheritedFieldType? h scope name
  | _ => none

/-- Declared type of the variable visible at a node, with the node at which that type name is
to be resolved. -/
def variableType? (node : NodeId) (name : String) : Option (String × NodeId) :=
  (h.program.ancestors node).findSome? (variableTypeIn? h name)

/-! ### Overloads -/

variable (typeOf : NodeId → Except Error NodeId)

/-- Simple type name of an argument, when it can be derived. -/
def argumentType (argument : NodeId) : Except Error (Option String) :=
  match h.program.kind? argument with
  | some (.expression (.literal typeName)) => .ok (some typeName)
  | some (.expression (.name name)) =>
    .ok ((variableType? h argument name).map fun v => TypeName.simple v.1)
  | _ => do return (← orUnknown (typeOf argument)).bind h.program.simpleName?

/-- How many parameters have the simple type of the argument in their place. -/
def score (argumentTypes : List (Option String)) (decl : NodeId) : Nat :=
  match h.program.callable? decl with
  | some d =>
    (d.parameters.zip argumentTypes).countP fun (q, a) => a == some (TypeName.simple q.typeName)
  | none => 0

/-- The first element with the greatest value. -/
def firstMax (value : NodeId → Nat) : List NodeId → Option NodeId
  | [] => none
  | x :: rest => some (rest.foldl (fun best y => if value best < value y then y else best) x)

/-- The overload to take out of those with the right name and arity. -/
def bestCandidate (call : NodeId) : List NodeId → Except Error (Option NodeId)
  | [] => .ok none
  | [only] => .ok (some only)
  | candidates => do
    let types ← (h.program.arguments call).mapM (argumentType h typeOf)
    return firstMax (score h types) candidates

/-- Methods of the nearest type in an ancestry that has any with the given name and arity. -/
def methodCandidates? (name : String) (arity : Nat) (root : NodeId) : Option (List NodeId) :=
  (h.ancestry root).findSome? fun t =>
    let found := (h.program.methodsOf t).filter fun m =>
      (h.program.callable? m).any fun d => d.name == name && d.arity == arity
    if found.isEmpty then none else some found

def constructorCandidates (arity : Nat) (type : NodeId) : List NodeId :=
  (h.program.constructorsOf type).filter fun c => (h.program.callable? c).any (·.arity == arity)

/-! ### Calls -/

/-- The types at which the search for a called method starts. -/
def searchRoots (call : NodeId) : CallScope → Except Error (List NodeId)
  | .implicit => .ok (h.program.enclosingTypes call)
  | .this => do return [← enclosingType h call]
  | .qualifiedThis name => do return [← resolveTypeName h call name]
  | .super => do return [← superclass h (← enclosingType h call)]
  | .qualifiedSuper name => do
    let named ← resolveTypeName h call name
    return [← orUnresolved ("No parent found for " ++ h.program.describe named)
      (qualifiedSuperRoot? h.program h.parentOf? named)]
  | .expression receiver => do return [← typeOf receiver]

def resolveMethodCall (call : NodeId) (c : MethodCall) : Except Error Resolution := do
  let roots ← searchRoots h typeOf call c.scope
  let candidates := (roots.findSome? (methodCandidates? h c.name c.arguments.length)).getD []
  report h (← orUnresolved ("No declaration for " ++ h.program.describe call)
    (← bestCandidate h typeOf call candidates))

def resolveCreation (call : NodeId) (c : ObjectCreation) : Except Error Resolution := do
  let type ← resolveTypeName h call c.typeName
  report h (← orUnresolved
    ("No constructor of " ++ c.typeName ++ " matches " ++ h.program.describe call)
    (← bestCandidate h typeOf call (constructorCandidates h c.arguments.length type)))

def resolveInvocation (call : NodeId) (c : ConstructorInvocation) : Except Error Resolution := do
  let current ← enclosingType h call
  let type ← if c.isThis then pure current else superclass h current
  report h (← orUnresolved ("No constructor matches " ++ h.program.describe call)
    (← bestCandidate h typeOf call (constructorCandidates h c.arguments.length type)))

/-- Resolution of a call, given the types of other nodes. -/
def resolveWith (call : NodeId) : Except Error Resolution := do
  match (← h.program.node call).kind with
  | .methodCall c => resolveMethodCall h typeOf call c
  | .objectCreation c => resolveCreation h typeOf call c
  | .constructorInvocation c => resolveInvocation h typeOf call c
  | _ => unresolved (h.program.describe call ++ " is not a call")

/-! ### Static types -/

/-- The type a resolved method call returns. -/
def returnType : Resolution → Except Error NodeId
  | .declaration decl =>
    match h.program.callable? decl with
    | some { kind := .method, returnType := some name, .. } => resolveTypeName h decl name
    | some _ => unresolved (h.program.describe decl ++ " has no return type")
    | none => unresolved (h.program.describe decl ++ " is not callable")
  | .signature s => unresolved ("Return type of " ++ s.display ++ " is not available")

/-- The type of a field access, given the type of its object. -/
def accessType (node : NodeId) (field : String) : Except Error NodeId := do
  let object ← orUnresolved ("Field access " ++ field ++ " without object")
    (h.program.children node).head?
  let owner ← typeOf object
  match inheritedFieldType? h owner field with
  | some (typeName, context) => resolveTypeName h context typeName
  | none => unresolved ("Field " ++ field ++ " not found in " ++ h.program.describe owner)

/-- The static type of a node, given the types of other nodes. A name that is no variable is
taken for a type name. -/
def staticTypeWith (node : NodeId) : Except Error NodeId := do
  match (← h.program.node node).kind with
  | .expression (.name name) =>
    match variableType? h node name with
    | some (typeName, context) => resolveTypeName h context typeName
    | none => resolveTypeName h node name
  | .expression .this => enclosingType h node
  | .expression (.qualifiedThis name) => resolveTypeName h node name
  | .expression (.fieldAccess field) => accessType h typeOf node field
  | .expression (.cast typeName) => resolveTypeName h node typeName
  | .expression (.literal typeName) => resolveTypeName h node typeName
  | .objectCreation c => resolveTypeName h node c.typeName
  | .methodCall _ => returnType h (← resolveWith h typeOf node)
  | _ => unresolved ("Cannot compute the type of " ++ h.program.describe node)

/-- The static type of a node whose typing needs at most `depth` nodes in a chain. -/
def staticTypeWithin : (depth : Nat) → NodeId → Except Error NodeId
  | 0, node => .error (.endlessType node)
  | depth + 1, node => staticTypeWith h (staticTypeWithin depth) node

/-- The static type of an expression node. -/
def staticType : NodeId → Except Error NodeId := staticTypeWithin h (h.program.size + 1)

/-- The declaration that a method call, object creation or constructor invocation names. -/
def resolve : NodeId → Except Error Resolution := resolveWith h (staticType h)

end Resolver

end JavaCallGraph
