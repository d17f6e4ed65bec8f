import JavaCallGraph.CallGraph.Basic
import JavaCallGraph.CallGraph.Dispatch
import JavaCallGraph.Settings.Basic

/-!
Building a call graph.

First every method and constructor below the given units becomes a vertex. Then a scoped walk
attributes each call to the innermost enclosing callable, finds what it may run and links the
vertices. A call site that cannot be linked does not stop the build; its report says why. A build
that fails for another reason keeps what it added so far.
-/

namespace JavaCallGraph.CallGraph

/-- Make a callable a vertex, unless a vertex stands for it already. -/
def enroll (p : Program) (g : CallGraph) (declaration : NodeId) : CallGraph :=
  match g.vertex? p declaration, Vertex.of p declaration with
  | none, .ok v => g.addVertex v
  | _, _ => g

def addVertices (p : Program) (g : CallGraph) (units : List NodeId) : CallGraph :=
  ((p.allUnder units).filter p.isCallable).foldl (enroll p) g

variable (s : Basis)

/-- Link two declarations through a call. -/
def addEdge (g : CallGraph) (source target : NodeId) (kind : CallKind) (call : NodeId) :
    Except Error CallGraph := do
  let point ← s.facts.containingPoint source call
  let edge ← Edge.of s.program kind call point
  let caller ← g.vertex s.program source
  let callee ← g.vertex s.program target
  return g.addLink { source := caller.declaration, target := callee.declaration, edge }

/-- The edges of one call so far: how many, and the last failure to add one. -/
structure Attempt where
  linked : Nat := 0
  failure : Option Error := none

/-- A call with no edge and a failure is dropped, any other is linked. -/
def Attempt.outcome (a : Attempt) : Outcome :=
  match a.failure with
  | some e => if a.linked = 0 then .dropped e.message else .linked a.linked
  | none => .linked a.linked

/-- Link a caller to each target in turn. A failure that is not recoverable ends the attempt. -/
def connect (caller : NodeId) (kind : CallKind) (call : NodeId) :
    List NodeId → Attempt → CallGraph → CallGraph × Except Error Outcome
  | [], attempt, g => (g, .ok attempt.outcome)
  | target :: rest, attempt, g =>
    match addEdge s g caller target kind call with
    | .ok g => connect caller kind call rest { attempt with linked := attempt.linked + 1 } g
    | .error e =>
      if e.isRecoverable then connect caller kind call rest { attempt with failure := some e } g
      else (g, .error e)

/-- The outcome of a call made by `caller`. -/
def linkTargets (g : CallGraph) (caller call : NodeId) (kind : CallKind) (scope : Walk.Scope) :
    CallGraph × Except Error Outcome :=
  match targets s call kind scope with
  | .ok (.targets found) => connect s caller kind call found {} g
  | .ok .noTargets =>
    match s.settings.zeroTargets with
    | .discard => (g, .ok .noTargets)
    | .strict => (g, .error (.noDispatchTargets (s.program.describe call)))
  | .error e => if e.isRecoverable then (g, .ok (.unresolved e.message)) else (g, .error e)

/-- Link a call and report on it. -/
def linkCall (g : CallGraph) (call : NodeId) (kind : CallKind) (scope : Walk.Scope) :
    CallGraph × Except Error Unit :=
  match scope.currentCallable?, scope.currentType? with
  | some caller, _ =>
    match linkTargets s g caller call kind scope with
    | (g, .ok outcome) => (g.addReport { call, kind, caller := some caller, outcome }, .ok ())
    | (g, .error e) => (g, .error e)
  | none, some _ => (g.addReport { call, kind, caller := none, outcome := .typeLevel }, .ok ())
  | none, none =>
    (g, .error (.illegalState
      ("Call " ++ s.program.describe call ++ " is outside of any type or callable declaration")))

/-- How to go on below a field: inside a callable its calls belong to no one; a non-static field
is walked for each constructor of its type. -/
def fieldDescend (field : FieldDecl) (scope : Walk.Scope) : Walk.Descend :=
  if scope.currentCallable?.isSome then .skip
  else if field.isStatic || !s.settings.fieldInitializersToConstructors then .children
  else
    match scope.currentType? with
    | some type =>
      match s.program.constructorsOf type with
      | [] => .children
      | constructors => .perCallable constructors
    | none => .children

/-- Link the calls met on the walk. -/
def linker : Walk.Visitor CallGraph := fun g node scope =>
  match s.program.kind? node with
  | some (.field field) => (g, .ok (fieldDescend s field scope))
  | some k =>
    match k.callKind? with
    | some kind =>
      match linkCall s g node kind scope with
      | (g, .ok ()) => (g, .ok .children)
      | (g, .error e) => (g, .error e)
    | none => (g, .ok .children)
  | none => (g, .error (.missingNode node))

def addEdges (g : CallGraph) (units : List NodeId) : CallGraph × Except Error Unit :=
  Walk.walk s.program (linker s) g units

/-- Build vertices and edges for some units. A graph that is built stays as it is. -/
def build (g : CallGraph) (units : List NodeId) : CallGraph × Except Error Unit :=
  if g.built then (g, .ok ())
  else
    match units.find? (!s.program.has ·) with
    | some id => (g, .error (.missingNode id))
    | none =>
      match addEdges s (addVertices s.program g units) units with
      | (g, .ok ()) => ({ g with built := true }, .ok ())
      | (g, .error e) => (g, .error e)

end JavaCallGraph.CallGraph
