import TraceRecovery.SortedSet

/-!
# Pairs of ids

The ids of an item and of a unit that a link connects. Pairs are ordered by the item's id first and
by the unit's id second; equal pairs are the only ones that neither precedes the other.
-/

namespace TraceRecovery

/-- The ids of the two ends of a link. -/
structure LinkPair where
  item : String
  unit : String
deriving DecidableEq, Repr

namespace LinkPair

instance : Ord LinkPair := ⟨compareLex (compareOn item) (compareOn unit)⟩

theorem compare_def (p q : LinkPair) :
    compare p q = (compare p.item q.item).then (compare p.unit q.unit) := rfl

instance : Std.TransOrd LinkPair :=
  inferInstanceAs (Std.TransCmp (compareLex (compareOn item) (compareOn unit)))

instance : Std.LawfulEqOrd LinkPair where
  eq_of_compare {p q} h := by
    cases p
    cases q
    simp only [compare_def, Ordering.then_eq_eq, Std.LawfulEqCmp.compare_eq_iff_eq] at h
    simp [h]

end LinkPair

end TraceRecovery
