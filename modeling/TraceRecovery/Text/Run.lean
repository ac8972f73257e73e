/-!
# Runs of code points

A character class is written down as a list of runs, each of which takes every `step`-th code
point from `first` to `last`. `covers` looks a code point up in such a list. The list must ascend:
the look-up ends at the first run that begins beyond the code point, so that the letters of ASCII
are found, and refused, within the first few runs.
-/

namespace TraceRecovery.Text

/-- Every `step`-th code point from `first` to `last`. -/
structure Run where
  first : Nat
  last : Nat
  step : Nat

/-- Whether a code point lies on the run. -/
def Run.has (r : Run) (n : Nat) : Bool :=
  r.first ≤ n && n ≤ r.last && (n - r.first) % r.step == 0

/-- Whether a code point lies on one of the runs of an ascending list. -/
def covers : List Run → Nat → Bool
  | [], _ => false
  | r :: rs, n => if n < r.first then false else r.has n || covers rs n

end TraceRecovery.Text
