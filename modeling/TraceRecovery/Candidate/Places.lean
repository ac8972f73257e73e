import Std.Data.HashMap
import TraceRecovery.Candidate

/-!
# Candidates with their places

The candidates of a run are enumerated once, together with an index of their places in the order, by
which a pair is recognised as a candidate and found again.
-/

namespace TraceRecovery

/-- Candidates in order with an index of their places. -/
structure Enumeration where
  candidates : Array Candidate
  places : Std.HashMap Candidate Nat

namespace Enumeration

/-- All pairs of an item and a unit, each item with all units in turn. -/
def pairs (items : List Item) (units : List CodeUnit) : Array Candidate :=
  items.foldl (fun cs i => units.foldl (fun cs u => cs.push ⟨i, u⟩) cs) #[]

/-- The candidates of two models. -/
def ofModels (a : Architecture) (c : Code) : Enumeration :=
  let candidates := pairs a.items c.units
  ⟨candidates, .ofList candidates.toList.zipIdx⟩

/-- The place of a candidate in the order. -/
def position? (e : Enumeration) (t : Candidate) : Option Nat := e.places[t]?

/-- Whether a pair is one of the candidates. -/
def contains (e : Enumeration) (t : Candidate) : Bool := e.places.contains t

def size (e : Enumeration) : Nat := e.candidates.size

end Enumeration

end TraceRecovery
