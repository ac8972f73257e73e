import TraceRecovery.Tree.NumberedDraft

/-!
# The graph of a tree

An edge leads from each input of a node to the node, once for every time that the input is declared.
The graph has all nodes of the tree, whether the root needs them or not. It is asked for the inputs
of a node and for its readers, which are listed in ascending order, and once even where several
edges lead to them.

The places next to a place are found among the edges in some order, which is left open
(`Traversal`).
-/

namespace TraceRecovery

/-- Against the edges, to the inputs of a node, or along them, to its readers. -/
inductive Direction where
  | toInputs
  | toReaders

/-- The place to which an edge leads from a place in a direction, if it begins there. -/
def Direction.across? (direction : Direction) (place : Nat) : Nat × Nat → Option Nat
  | (input, reader) =>
    match direction with
    | toInputs => if reader = place then some input else none
    | toReaders => if input = place then some reader else none

/-- A way to go through the edges at a place. It finds the places at their other ends, all of them
and no others, in any order and each as often as it likes. -/
structure Traversal where
  neighbors : Array (Nat × Nat) → Direction → Nat → List Nat
  mem_neighbors : ∀ edges direction place other, other ∈ neighbors edges direction place ↔
    ∃ edge ∈ edges, direction.across? place edge = some other

/-- From the latest edge back to the first. -/
def Traversal.latestFirst : Traversal where
  neighbors edges direction place := edges.toList.reverse.filterMap (direction.across? place)
  mem_neighbors edges direction place other := by
    simp only [List.mem_filterMap, List.mem_reverse, Array.mem_toList_iff]

/-- The nodes of a tree, with an edge from every input to its reader. -/
structure Graph where
  /-- The numbers of the nodes by their places. -/
  ids : Array NodeId
  /-- The places of an input and of its reader. -/
  edges : Array (Nat × Nat)

namespace Graph

/-- Adds the edges that lead to a node. -/
def addReader (edges : Array (Nat × Nat)) (n : NumberedNode) : Array (Nat × Nat) :=
  n.inputs.foldl (fun edges i => edges.push (i, n.id)) edges

/-- The graph of some nodes, each of which stands in the place of its number. -/
def ofNodes (nodes : Array NumberedNode) : Graph :=
  ⟨nodes.map NumberedNode.id, nodes.foldl addReader #[]⟩

/-- The nodes next to a node, in ascending order. A number without node has none. -/
def neighbors (g : Graph) (v : Traversal) (direction : Direction) (id : NodeId) : List NodeId :=
  if id < g.ids.size then
    ((v.neighbors g.edges direction id).filterMap fun place => g.ids[place]?).mergeSort.eraseReps
  else []

/-- The nodes that a node reads. -/
def inputsOf (g : Graph) (v : Traversal) (id : NodeId) : List NodeId := g.neighbors v .toInputs id

/-- The nodes that read a node. -/
def readersOf (g : Graph) (v : Traversal) (id : NodeId) : List NodeId := g.neighbors v .toReaders id

end Graph

namespace Tree

/-- The nodes with their numbers. -/
def numbered (t : Tree) : Array NumberedNode := t.nodes.toArray.mapIdx fun id n => ⟨n, id⟩

def graph (t : Tree) : Graph := .ofNodes t.numbered

/-- The nodes that a node reads, in ascending order. -/
def inputsOf (t : Tree) (id : NodeId) : List NodeId := t.graph.inputsOf .latestFirst id

/-- The nodes that read a node, in ascending order. -/
def readersOf (t : Tree) (id : NodeId) : List NodeId := t.graph.readersOf .latestFirst id

end Tree

end TraceRecovery
