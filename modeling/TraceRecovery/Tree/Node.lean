import TraceRecovery.Aggregation
import TraceRecovery.Heuristic.Basic
import TraceRecovery.Result.Board

/-!
# Nodes of a tree

A leaf scores candidates with a heuristic, an inner node combines the confidences of its children.
Either reads the results of its inputs: a leaf those of its declared dependencies, an inner node
those of its children.
-/

namespace TraceRecovery

/-- What a node computes, and which nodes it reads. -/
inductive NodeKind where
  | leaf (heuristic : Heuristic) (dependencies : List NodeId)
  | inner (aggregation : Aggregation) (children : List NodeId)

/-- A node of a tree. -/
structure Node where
  /-- The name of the node in errors and exported links. -/
  label : String
  kind : NodeKind

namespace Node

/-- The nodes whose results the node reads, in the order of their declaration. -/
def inputs (n : Node) : List NodeId :=
  match n.kind with
  | .leaf _ dependencies => dependencies
  | .inner _ children => children

/-- Whether the node extends the result of its first dependency. -/
def isDependent (n : Node) : Bool :=
  match n.kind with
  | .leaf h _ => decide (h.kind = .dependent)
  | .inner _ _ => false

/-- Whether the node has the inputs that its kind asks for. -/
def validate (n : Node) : Except TraceError Unit :=
  match n.kind with
  | .leaf h dependencies =>
    match h.kind, dependencies with
    | .dependent, [] => .error (.invalidArgument (.missingDependency n.label))
    | .standalone, _ :: _ => .error (.invalidArgument (.strayDependency n.label))
    | _, _ => .ok ()
  | .inner a children => a.validate children.length

/-- The inputs of the node with a number in a list of nodes; a number without node has none. -/
def inputsIn (nodes : List Node) (id : NodeId) : List NodeId :=
  match nodes[id]? with
  | some n => n.inputs
  | none => []

/-- The label of the node with a number in a list of nodes; a number without node has an empty
one. -/
def labelIn (nodes : List Node) (id : NodeId) : String :=
  match nodes[id]? with
  | some n => n.label
  | none => ""

end Node

end TraceRecovery
