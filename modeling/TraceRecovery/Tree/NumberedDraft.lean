import TraceRecovery.Tree.Draft

/-!
# Drafts whose nodes carry their numbers

A draft that is changed in place, by calls that are answered. A node carries the number that it was
given when it was added, by which other nodes name it as their input; the draft looks a node up by
its place. A call leaves a draft behind whether it is accepted or refused. `toDraft` is the plain
draft that a numbered one stands for.
-/

namespace TraceRecovery

/-- A node with the number by which others name it. -/
structure NumberedNode extends Node where
  id : NodeId

/-- A tree in the making whose nodes carry their numbers. -/
structure NumberedDraft where
  name : String
  nodes : Array NumberedNode

namespace NumberedDraft

/-- A call on a draft: its answer, and the draft that it leaves behind. -/
abbrev Update := ExceptT TraceError (StateM NumberedDraft)

/-- A draft without nodes. -/
def empty (name : String) : NumberedDraft := ⟨name, #[]⟩

/-- Adds a node behind the others and tells its number. -/
def add (n : Node) : Update NodeId := do
  let id := (← getThe NumberedDraft).nodes.size
  modify fun d => { d with nodes := d.nodes.push ⟨n, id⟩ }
  return id

/-- Adds a leaf that is labelled with the id of its heuristic. -/
def addLeaf (h : Heuristic) : Update NodeId := add ⟨h.id, .leaf h []⟩

/-- Adds an inner node that is labelled with the name of its aggregation. -/
def addInner (a : Aggregation) (children : List NodeId) : Update NodeId :=
  add ⟨a.name, .inner a children⟩

/-- The node in a place. -/
def node (place : NodeId) : Update NumberedNode := do
  match (← getThe NumberedDraft).nodes[place]? with
  | some n => return n
  | none => throw (.unresolved (.node place))

/-- Puts a changed node back into its place. -/
def put (place : NodeId) (n : NumberedNode) : Update Unit :=
  modify fun d => { d with nodes := d.nodes.setIfInBounds place n }

/-- Declares that a leaf reads the result of a node. The first declared one is the base of a
dependent heuristic. -/
def dependsOn (id dependency : NodeId) : Update Unit := do
  let n ← node id
  match n.kind with
  | .leaf h dependencies => put id { n with kind := .leaf h (dependencies ++ [dependency]) }
  | .inner _ _ => throw (.invalidArgument (.aggregationDependency n.label))

/-- Gives a node another label. -/
def relabel (id : NodeId) (label : String) : Update Unit := do
  let n ← node id
  put id { n with label }

/-- The plain draft. -/
def toDraft (d : NumberedDraft) : Draft := ⟨d.name, d.nodes.toList.map NumberedNode.toNode⟩

/-- The tree with the given root. -/
def build (d : NumberedDraft) (root : NodeId) : Except TraceError Tree := d.toDraft.build root

end NumberedDraft

end TraceRecovery
