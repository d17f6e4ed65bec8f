import JavaCallGraph.CallGraph.Build
import JavaCallGraph.CallGraph.Reach
import JavaCallGraph.Loading
import JavaCallGraph.Proofs.Program.Forest
import JavaCallGraph.Proofs.Program.Lineage
import JavaCallGraph.Proofs.Walk.Exploration
import JavaCallGraph.Proofs.Walk.Visits
import JavaCallGraph.Proofs.Hierarchy
import JavaCallGraph.Proofs.Resolver
import JavaCallGraph.Proofs.CallGraph.Vertices
import JavaCallGraph.Proofs.CallGraph.Linking
import JavaCallGraph.Proofs.CallGraph.Builds
import JavaCallGraph.Proofs.CallGraph.Scopes
import JavaCallGraph.Proofs.Program.Operands
import JavaCallGraph.Proofs.ResolverFailures
import JavaCallGraph.Proofs.CallGraph.Distinct
import JavaCallGraph.Proofs.CallGraph.Dispatching
import JavaCallGraph.Proofs.Subtypes
import JavaCallGraph.Proofs.CallGraph.DispatchFailures
import JavaCallGraph.Proofs.CallGraph.LinkFailures
import JavaCallGraph.Proofs.CallGraph.NamedTargets
import JavaCallGraph.Proofs.Points
import JavaCallGraph.Proofs.CallGraph.Anchoring
import JavaCallGraph.Proofs.CallGraph.Attribution
import JavaCallGraph.Proofs.CallGraph.Enrolment
import JavaCallGraph.Proofs.CallGraph.Accounting
import JavaCallGraph.Proofs.CallGraph.ImplicitReceivers
import JavaCallGraph.Proofs.CallGraph.Retrying
import JavaCallGraph.Proofs.Walk.Recursion
import JavaCallGraph.Proofs.CallGraph.Repetition
import JavaCallGraph.Proofs.CallGraph.UnitSets
import JavaCallGraph.Proofs.CallGraph.BuildFailures
import JavaCallGraph.Proofs.Loop
import JavaCallGraph.Proofs.Supertypes
import JavaCallGraph.Proofs.Program.Grafting
import JavaCallGraph.Proofs.Java.Sketch
import JavaCallGraph.Proofs.Program.Copies
import JavaCallGraph.Proofs.Java.Planting
import JavaCallGraph.Proofs.Java.WorkStack
import JavaCallGraph.Proofs.Java.Placement
import JavaCallGraph.Proofs.Program.Arena
import JavaCallGraph.Proofs.CallGraph.Lasting
import JavaCallGraph.Proofs.CallGraph.Views
import JavaCallGraph.Proofs.CallGraph.WholePrograms
import JavaCallGraph.Proofs.CallGraph.LibraryTargets
import JavaCallGraph.Proofs.Java.Arrangement
import JavaCallGraph.Proofs.Java.NodeTypes
import JavaCallGraph.Proofs.Java.Accounts
import JavaCallGraph.Proofs.Java.Layout
import JavaCallGraph.Proofs.Program.Listing
import JavaCallGraph.Proofs.Program.Preorder
import JavaCallGraph.Proofs.Java.SourceOrder
import JavaCallGraph.Proofs.Java.CallsKept
import JavaCallGraph.Proofs.Java.CallOperands
import JavaCallGraph.Proofs.Java.Derivation
import JavaCallGraph.Proofs.Java.Conformity
import JavaCallGraph.Proofs.Java.Sightings
import JavaCallGraph.Proofs.Java.Exposure
import JavaCallGraph.Proofs.CallGraph.BodyCalls
import JavaCallGraph.Proofs.Inheritance
import JavaCallGraph.Proofs.CallGraph.EdgeKinds
import JavaCallGraph.Proofs.Java.Positions
import JavaCallGraph.Proofs.CallGraph.CallSites
import JavaCallGraph.Proofs.TypeNames
import JavaCallGraph.Proofs.ForeignUnits
import JavaCallGraph.Proofs.Overloads
import JavaCallGraph.Proofs.TypingOrder
import JavaCallGraph.Proofs.CallGraph.Adjacency
import JavaCallGraph.Proofs.CallGraph.Rings
import JavaCallGraph.Proofs.CallGraph.BreadthFirst
import JavaCallGraph.Proofs.PointTable
import JavaCallGraph.Proofs.CallGraph.Identity
import JavaCallGraph.Proofs.CallGraph.FieldInitializers
import JavaCallGraph.Proofs.TypeName.Qualifiers
import JavaCallGraph.Proofs.TypeName.Varargs
import JavaCallGraph.Proofs.StatementOwners
import JavaCallGraph.Proofs.TypeName.NormalForm
import JavaCallGraph.Proofs.Program.Signatures
