import TraceRecovery.Result.Table

/-!
# The results of a run

The sealed tables of the nodes that have run. A table is published once for each node and stays as
it is from then on.
-/

namespace TraceRecovery

/-- Nodes are numbered in the order in which they are added to a tree. -/
abbrev NodeId := Nat

/-- The text of a node's number. -/
def nodeText (id : NodeId) : String := s!"#{id}"

/-- The published tables, in the order of publication. -/
structure Board where
  tables : List (NodeId × Table)

namespace Board

/-- The board of a run that has not started. -/
def empty : Board := ⟨[]⟩

/-- The table of a node, if it has been published. -/
def table? (b : Board) (id : NodeId) : Option Table := b.tables.lookup id

/-- Whether a node has published its table. -/
def isComplete (b : Board) (id : NodeId) : Bool := (b.table? id).isSome

/-- The table of a node, which is named by its label if there is none. -/
def get (b : Board) (id : NodeId) (label : String) : Except TraceError Table :=
  match b.table? id with
  | some t => .ok t
  | none => .error (.incomplete label .notRun)

/-- Publishes the table of a node, which must be sealed and the node's first. -/
def publish (b : Board) (id : NodeId) (t : Table) : Except TraceError Board := do
  t.ensureSealed
  if b.isComplete id then
    .error (.duplicateEntry t.label ("result store slot " ++ nodeText id))
  else .ok ⟨b.tables ++ [(id, t)]⟩

def size (b : Board) : Nat := b.tables.length

end Board

end TraceRecovery
