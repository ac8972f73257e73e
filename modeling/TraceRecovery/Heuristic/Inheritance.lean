import TraceRecovery.Heuristic.Basic

/-!
# Links along inheritance

A unit whose types extend or implement a type of a linked unit takes over the best confidence of
the units that it inherits from in this way. Supertypes that no unit declares match nothing.
-/

namespace TraceRecovery

namespace Inheritance

/-- The confidences that a candidate takes over from the linked units, which must all be units of
the code; the first that is not is reported. -/
def inherited (c : Context) (base : Table) (t : Candidate) :
    List CodeUnit → Except TraceError (List Confidence)
  | [] => .ok []
  | v :: vs => do
    let _ ← c.code.unit v.id
    let rest ← inherited c base t vs
    return if t.unit.inheritsFrom v then base.get ⟨t.item, v⟩ :: rest else rest

/-- The confidence of a candidate. -/
def score (t : Candidate) (c : Context) : Except TraceError Confidence := do
  let base ← c.base
  if (base.get t).isDefined then return .unset
  return Confidence.bestOf (← inherited c base t (base.linkedUnits t.item.id))

end Inheritance

/-- The heuristic that extends a base along inheritance. -/
def Heuristic.byInheritance : Heuristic where
  id := "inherit-links"
  kind := .dependent
  score := Inheritance.score

end TraceRecovery
