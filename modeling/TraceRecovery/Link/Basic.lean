import TraceRecovery.Result.Table

/-!
# Trace links

A trace link says that a unit of the code realises an item of the architecture, how confident a run
is of it, and where the confidence comes from. The links of a sealed table are its candidates with a
confidence of at least a threshold, in the order of the candidates. An abstention is never a link,
not even at the threshold 0.
-/

namespace TraceRecovery

/-- A link between an item and a unit. -/
structure TraceLink where
  itemId : String
  itemName : String
  unitId : String
  unitName : String
  confidence : Float
  /-- The tree or the node that the confidence comes from. -/
  source : String

/-- The least confidence of links: a number between 0 and 1. -/
structure Threshold where
  value : Float
  inRange : 0 ≤ value ∧ value ≤ 1

namespace Threshold

/-- The threshold with a given value. -/
def ofValue (value : Float) : Except TraceError Threshold :=
  if h : 0 ≤ value ∧ value ≤ 1 then .ok ⟨value, h⟩
  else .error (.invalidArgument (.thresholdOutOfRange value))

/-- Whether a confidence is defined and reaches the threshold. -/
def admits (θ : Threshold) : Confidence → Bool
  | .unset => false
  | .of v _ => θ.value ≤ v

/-- The link of a candidate whose confidence reaches the threshold. -/
def link? (θ : Threshold) (table : Table) (source : String) (t : Candidate) : Option TraceLink :=
  match table.get t with
  | .unset => none
  | .of v _ =>
    if θ.value ≤ v then some ⟨t.item.id, t.item.name, t.unit.id, t.unit.name, v, source⟩
    else none

/-- The links of a table, which must be sealed. -/
def links (θ : Threshold) (space : CandidateSpace) (table : Table) (source : String) :
    Except TraceError (List TraceLink) := do
  table.ensureSealed
  return space.candidates.filterMap (θ.link? table source)

theorem isSome_link? {θ : Threshold} {table : Table} {source : String} {t : Candidate} :
    (θ.link? table source t).isSome = θ.admits (table.get t) := by
  unfold link? admits
  split
  · rfl
  · split <;> simp_all

end Threshold

end TraceRecovery
