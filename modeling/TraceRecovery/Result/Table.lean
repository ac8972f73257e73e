import TraceRecovery.Candidate
import TraceRecovery.Confidence

/-!
# Result tables

The confidences that a node gives to the candidates. Every candidate is written at most once. A
table is sealed when it has an entry for each candidate of a run and none besides, and a sealed
table never changes again; only sealed tables are read by other nodes. The table is its list of
entries in the order of writing: `set_eq_ok_iff` says when an entry can be written and what the
list is then.
-/

namespace TraceRecovery

/-- The entries of a node's result, in the order of writing. -/
structure Table where
  /-- The label of the node that owns the table. -/
  label : String
  entries : List (Candidate × Confidence)
  isSealed : Bool

namespace Table

/-- The table of a node before anything is written. -/
def empty (label : String) : Table := ⟨label, [], false⟩

/-- The candidates that have an entry, in the order of writing. -/
def written (t : Table) : List Candidate := t.entries.map Prod.fst

/-- Whether a candidate has an entry, with or without a value. -/
def contains (t : Table) (c : Candidate) : Bool := t.entries.any fun e => e.1 == c

/-- The confidence of a candidate; abstention if it has no entry. -/
def get (t : Table) (c : Candidate) : Confidence := (t.entries.lookup c).getD .unset

def size (t : Table) : Nat := t.entries.length

/-- The number of entries with a value. -/
def definedCount (t : Table) : Nat := t.entries.countP fun e => e.2.isDefined

/-- Writes the confidence of a candidate. -/
def set (t : Table) (c : Candidate) (confidence : Confidence) : Except TraceError Table :=
  if t.isSealed then .error (.invalidArgument (.sealedTable t.label))
  else if t.contains c then .error (.duplicateEntry t.label c.render)
  else .ok { t with entries := t.entries ++ [(c, confidence)] }

/-- The units that have a value together with an item, in the order of writing. -/
def linkedUnits (t : Table) (itemId : String) : List CodeUnit :=
  (t.entries.filter fun e => e.1.item.id == itemId && e.2.isDefined).map fun e => e.1.unit

/-- The number of candidates of a space without an entry. -/
def missing (t : Table) (space : CandidateSpace) : Nat :=
  space.candidates.countP fun c => !t.contains c

/-- Seals the table if its entries are exactly those of the candidates of a space. -/
def sealOver (t : Table) (space : CandidateSpace) : Except TraceError Table :=
  let missing := t.missing space
  if missing > 0 || t.size != space.size then
    .error (.incomplete t.label
      (.mismatch missing space.size (t.size + missing - space.size)))
  else .ok { t with isSealed := true }

/-- Refuses a table that is not sealed. -/
def ensureSealed (t : Table) : Except TraceError Unit :=
  if t.isSealed then .ok () else .error (.incomplete t.label (.unsealed t.size))

/-- Writes the confidences of several candidates in turn. -/
def setAll (t : Table) : List (Candidate × Confidence) → Except TraceError Table
  | [] => .ok t
  | (c, confidence) :: rest => do (← t.set c confidence).setAll rest

theorem contains_iff {t : Table} {c : Candidate} : t.contains c = true ↔ c ∈ t.written := by
  simp only [contains, written, List.any_eq_true, beq_iff_eq, List.mem_map]

/-- An entry is written exactly if the table is open and has none for the candidate, and then it
comes last. -/
theorem set_eq_ok_iff {t t' : Table} {c : Candidate} {confidence : Confidence} :
    t.set c confidence = .ok t' ↔
      t.isSealed = false ∧ c ∉ t.written ∧
        t' = { t with entries := t.entries ++ [(c, confidence)] } := by
  rw [← contains_iff]
  unfold set
  cases t.isSealed
  · cases t.contains c
    · simp [eq_comm]
    · simp
  · simp

end Table

end TraceRecovery
