import TraceRecovery.Tree.Node
import TraceRecovery.Tree.Schedule

/-!
# Building a tree

A tree is drafted node by node: each new node gets the next number, and edges may point to nodes
that are added later. `Draft.build` then checks the draft as a whole and schedules it. It reports
the first of these that fails: the root is a node, every node has the inputs that its kind asks
for, every input is a node, no node reads itself directly or through others.
-/

namespace TraceRecovery

/-- A tree in the making. -/
structure Draft where
  name : String
  nodes : List Node

/-- A tree that has been checked and can be run: its root is a node, every node has the inputs that
its kind asks for, and the nodes can be sorted so that each comes after its inputs. How they are
sorted is left open. -/
structure Tree where
  name : String
  nodes : List Node
  root : NodeId
  sorting : Schedule.Sorting (Node.inputsIn nodes) nodes.length
  root_lt : root < nodes.length
  valid : ∀ n ∈ nodes, n.validate = .ok ()

namespace Draft

/-- A draft without nodes. -/
def empty (name : String) : Draft := ⟨name, []⟩

/-- Adds a node and tells its number. -/
def add (d : Draft) (n : Node) : NodeId × Draft :=
  (d.nodes.length, { d with nodes := d.nodes ++ [n] })

/-- Adds a leaf that is labelled with the id of its heuristic. -/
def addLeaf (d : Draft) (h : Heuristic) : NodeId × Draft := d.add ⟨h.id, .leaf h []⟩

/-- Adds an inner node that is labelled with the name of its aggregation. -/
def addInner (d : Draft) (a : Aggregation) (children : List NodeId) : NodeId × Draft :=
  d.add ⟨a.name, .inner a children⟩

/-- The node with a number. -/
def node (d : Draft) (id : NodeId) : Except TraceError Node :=
  match d.nodes[id]? with
  | some n => .ok n
  | none => .error (.unresolved (.node id))

/-- Declares that a leaf reads the result of a node. The first declared one is the base of a
dependent heuristic. -/
def dependsOn (d : Draft) (id dependency : NodeId) : Except TraceError Draft := do
  let n ← d.node id
  match n.kind with
  | .leaf h dependencies =>
    let changed := { n with kind := .leaf h (dependencies ++ [dependency]) }
    return { d with nodes := d.nodes.set id changed }
  | .inner _ _ => .error (.invalidArgument (.aggregationDependency n.label))

/-- Gives a node another label. -/
def relabel (d : Draft) (id : NodeId) (label : String) : Except TraceError Draft := do
  let n ← d.node id
  return { d with nodes := d.nodes.set id { n with label } }

/-- The inputs of a node; a number without node has none. -/
def inputs (d : Draft) (id : NodeId) : List NodeId := Node.inputsIn d.nodes id

/-- Refuses the first node that lacks the inputs its kind asks for. -/
def validateNodes : List Node → Except TraceError Unit
  | [] => .ok ()
  | n :: ns => do
    n.validate
    validateNodes ns

theorem validateNodes_eq_ok_iff {ns : List Node} :
    validateNodes ns = .ok () ↔ ∀ n ∈ ns, n.validate = .ok () := by
  induction ns with
  | nil => simp [validateNodes]
  | cons n ns ih =>
    rw [List.forall_mem_cons, ← ih, validateNodes]
    cases n.validate with
    | error e => simp [bind, Except.bind]
    | ok u => simp [bind, Except.bind]

/-- The first input that is no node, with the node that reads it. -/
def danglingInput? (d : Draft) : Option (Node × NodeId) :=
  d.nodes.findSome? fun n => (n.inputs.find? fun i => d.nodes.length ≤ i).map fun i => (n, i)

/-- The tree with the given root. -/
def build (d : Draft) (root : NodeId) : Except TraceError Tree :=
  if root_lt : root < d.nodes.length then
    match valid : validateNodes d.nodes with
    | .error e => .error e
    | .ok () =>
      match d.danglingInput? with
      | some (reader, i) => .error (.unresolved (.input reader.label i))
      | none =>
        match Schedule.sort d.inputs d.nodes.length with
        | .error id => .error (.cyclicDependency (Node.labelIn d.nodes id))
        | .ok sorting =>
          .ok ⟨d.name, d.nodes, root, sorting, root_lt, validateNodes_eq_ok_iff.mp valid⟩
  else .error (.unresolved (.rootNode root))

end Draft

namespace Tree

/-- The node with a number. -/
def node (t : Tree) (id : NodeId) : Except TraceError Node :=
  match t.nodes[id]? with
  | some n => .ok n
  | none => .error (.unresolved (.nodeOfTree id t.name))

/-- The first node with a label. -/
def find? (t : Tree) (label : String) : Option NodeId := t.nodes.findIdx? fun n => n.label == label

def size (t : Tree) : Nat := t.nodes.length

/-- The inputs of a node; a number without node has none. -/
def inputs (t : Tree) (id : NodeId) : List NodeId := Node.inputsIn t.nodes id

/-- The nodes that the root needs, each after its inputs. -/
def order (t : Tree) : List NodeId := Schedule.order t.inputs t.sorting.ids t.root

/-- The nodes that the root needs in waves, each in a wave after those of its inputs. -/
def waves (t : Tree) : List (List NodeId) :=
  Schedule.waves (Schedule.levels t.inputs t.size t.order) t.order

end Tree

end TraceRecovery
