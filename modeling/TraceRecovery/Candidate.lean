import TraceRecovery.Model.Code

/-!
# Candidates

A candidate is a pair of an item and a unit that a trace link might connect. The candidates of a
run are all pairs of its two models, item by item and within an item unit by unit. Two candidates
are equal when all fields of their items and units are.
-/

namespace TraceRecovery

/-- A pair that a trace link might connect. -/
structure Candidate where
  item : Item
  unit : CodeUnit
deriving DecidableEq, Repr

/-- Candidates are looked up by the ids of their ends. Those with the same ids meet in one slot but
are still told apart by their other fields. -/
instance : Hashable Candidate := ⟨fun c => mixHash (hash c.item.id) (hash c.unit.id)⟩

/-- The text of a candidate in messages. -/
def Candidate.render (t : Candidate) : String := "(" ++ t.item.name ++ ", " ++ t.unit.render ++ ")"

/-- The candidates of an architecture and code, each item with all units in turn. -/
structure CandidateSpace where
  architecture : Architecture
  code : Code

namespace CandidateSpace

/-- All candidates in order. -/
def candidates (s : CandidateSpace) : List Candidate :=
  s.architecture.items.flatMap fun i => s.code.units.map fun u => ⟨i, u⟩

/-- The place of a candidate in the order. -/
def position? (s : CandidateSpace) (t : Candidate) : Option Nat := s.candidates.idxOf? t

/-- Whether a pair is a candidate of this space. -/
def contains (s : CandidateSpace) (t : Candidate) : Bool := s.candidates.contains t

def size (s : CandidateSpace) : Nat := s.candidates.length

/-- A pair is a candidate exactly if its item and its unit are in the models. -/
theorem mem_candidates {s : CandidateSpace} {t : Candidate} :
    t ∈ s.candidates ↔ t.item ∈ s.architecture.items ∧ t.unit ∈ s.code.units := by
  cases t
  simp [candidates]

/-- There are as many candidates as pairs. -/
theorem size_eq (s : CandidateSpace) : s.size = s.architecture.size * s.code.size := by
  simp only [size, candidates, List.length_flatMap, List.length_map, Architecture.size, Code.size,
    List.map_const', List.sum_replicate_nat]

end CandidateSpace

end TraceRecovery
