import Std.Data.HashMap
import TraceRecovery.Result.Table

/-!
# Indexed tables

A result table that is written and asked in any order. Beside the candidates in the order of writing
it keeps two indexes: the confidence of each candidate, and the units that have a value together
with an item, by the id of the item. A step that writes or seals answers whether it was accepted and
leaves a table behind in either case. `toTable` is the plain table that an indexed one stands for.
-/

namespace TraceRecovery

/-- The entries of a node's result together with its indexes. -/
structure IndexedTable where
  /-- The label of the node that owns the table. -/
  label : String
  confidences : Std.HashMap Candidate Confidence
  /-- The candidates in the order of writing. -/
  order : Array Candidate
  /-- The units with a value, by the id of the item. -/
  linked : Std.HashMap String (Array CodeUnit)
  isSealed : Bool

namespace IndexedTable

/-- A step on a table: its answer, and the table that it leaves behind. -/
abbrev Update := ExceptT TraceError (StateM IndexedTable)

/-- The table of a node before anything is written. -/
def empty (label : String) : IndexedTable := ⟨label, ∅, #[], ∅, false⟩

/-- The confidence of a candidate; abstention if it has no entry. -/
def get (t : IndexedTable) (c : Candidate) : Confidence := t.confidences.getD c .unset

/-- Whether a candidate has an entry, with or without a value. -/
def contains (t : IndexedTable) (c : Candidate) : Bool := t.confidences.contains c

/-- The units that have a value together with an item, in the order of writing. -/
def linkedUnits (t : IndexedTable) (itemId : String) : List CodeUnit :=
  (t.linked.getD itemId #[]).toList

/-- The entries in the order of writing. -/
def entries (t : IndexedTable) : List (Candidate × Confidence) :=
  t.order.toList.map fun c => (c, t.get c)

def size (t : IndexedTable) : Nat := t.confidences.size

/-- The number of entries with a value. -/
def definedCount (t : IndexedTable) : Nat := t.confidences.toList.countP fun e => e.2.isDefined

/-- The plain table. -/
def toTable (t : IndexedTable) : Table := ⟨t.label, t.entries, t.isSealed⟩

/-- The table in which the unit of a candidate is linked to its item. -/
def link (t : IndexedTable) (c : Candidate) : IndexedTable :=
  { t with linked := t.linked.insert c.item.id ((t.linked.getD c.item.id #[]).push c.unit) }

/-- The table with the confidence of a candidate as its last entry. -/
def enter (t : IndexedTable) (c : Candidate) (confidence : Confidence) : IndexedTable :=
  { t with
    confidences := t.confidences.insert c confidence
    order := t.order.push c }

/-- Writes the confidence of a candidate. -/
def set (c : Candidate) (confidence : Confidence) : Update Unit := do
  let t ← getThe IndexedTable
  if t.isSealed then throw (.invalidArgument (.sealedTable t.label))
  if t.contains c then throw (.duplicateEntry t.label c.render)
  if confidence.isDefined then modify (link · c)
  modify (enter · c confidence)

/-- Seals the table if its entries are exactly those of the candidates of a space. -/
def sealOver (space : CandidateSpace) : Update Unit := do
  let t ← getThe IndexedTable
  let missing := space.candidates.countP fun c => !t.contains c
  if missing > 0 || t.size != space.size then
    throw (.incomplete t.label (.mismatch missing space.size (t.size + missing - space.size)))
  modify ({ · with isSealed := true })

/-- Refuses a table that is not sealed. -/
def ensureSealed (t : IndexedTable) : Except TraceError Unit :=
  if t.isSealed then .ok () else .error (.incomplete t.label (.unsealed t.size))

end IndexedTable

end TraceRecovery
