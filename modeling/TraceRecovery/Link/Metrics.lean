import TraceRecovery.Decimal.Layout
import TraceRecovery.Error

/-!
# Metrics

How well the links of a run agree with the links that a correct run would have: four counts, which
say how many candidates are rightly or wrongly linked or left out, and eight scores that follow from
the counts. The scores are defined over any arithmetic with square roots, so that they can be
computed in doubles and reasoned about in real numbers. A quotient with the denominator 0 is 0
throughout.
-/

namespace TraceRecovery

/-- The arithmetic that scores are computed in. -/
class ScoreArithmetic (α : Type) extends Add α, Sub α, Mul α, Div α where
  ofNat : Nat → α
  sqrt : α → α
  isZero : α → Bool
  /-- Whether a number is below another. -/
  below : α → α → Bool

instance : ScoreArithmetic Float where
  ofNat := Float.ofNat
  sqrt := Float.sqrt
  isZero x := x == 0
  below a b := a < b

/-- How many candidates are linked rightly and wrongly, and left out wrongly and rightly. -/
structure Confusion where
  truePositives : Nat
  falsePositives : Nat
  falseNegatives : Nat
  trueNegatives : Nat
deriving DecidableEq, Repr

namespace Confusion

/-- The counts of no candidates. -/
def zero : Confusion := ⟨0, 0, 0, 0⟩

/-- The counts of two sets of candidates together. -/
def add (a b : Confusion) : Confusion :=
  ⟨a.truePositives + b.truePositives, a.falsePositives + b.falsePositives,
    a.falseNegatives + b.falseNegatives, a.trueNegatives + b.trueNegatives⟩

instance : Add Confusion := ⟨add⟩

/-- The number of links that a correct run has. -/
def goldSize (c : Confusion) : Nat := c.truePositives + c.falseNegatives

/-- The number of links that the run has. -/
def foundSize (c : Confusion) : Nat := c.truePositives + c.falsePositives

/-- The number of candidates. -/
def total (c : Confusion) : Nat :=
  c.truePositives + c.falsePositives + c.falseNegatives + c.trueNegatives

end Confusion

/-- The scores of a run. -/
structure Scores (α : Type) where
  /-- The share of the links found that are correct. -/
  precision : α
  /-- The share of the correct links that are found, printed as the recall. -/
  sensitivity : α
  /-- The harmonic mean of precision and sensitivity. -/
  f1 : α
  accuracy : α
  specificity : α
  /-- The correlation of found and correct links. -/
  phi : α
  /-- The greatest correlation that the numbers of found and of correct links allow. -/
  phiMax : α
  phiOverPhiMax : α

namespace Scores

variable {α : Type} [ScoreArithmetic α]

open ScoreArithmetic (ofNat sqrt isZero below)

/-- A quotient; 0 for the denominator 0. -/
def ratio (numerator denominator : α) : α :=
  if isZero denominator then ofNat 0 else numerator / denominator

/-- The lesser of two numbers. -/
def lesser (a b : α) : α := if below b a then b else a

/-- The greater of two numbers. -/
def greater (a b : α) : α := if below a b then b else a

/-- The correlation of found and correct links. -/
def phiOf (tp fp fn tn : α) : α :=
  ratio (tp * tn - fp * fn) (sqrt ((tp + fp) * (tp + fn) * (tn + fp) * (tn + fn)))

/-- The greatest correlation between found links and correct links that make up the given shares of
the candidates. -/
def phiMaxOfShares (found gold : α) : α :=
  let low := lesser found gold
  let high := greater found gold
  sqrt (ratio (low * (ofNat 1 - high)) (high * (ofNat 1 - low)))

/-- The greatest correlation that the numbers of found and of correct links allow. -/
def phiMaxOf (tp fp fn total : α) : α :=
  if isZero total then ofNat 0 else phiMaxOfShares ((tp + fp) / total) ((tp + fn) / total)

/-- The scores that follow from the counts. -/
def ofConfusion (c : Confusion) : Scores α :=
  let tp : α := ofNat c.truePositives
  let fp : α := ofNat c.falsePositives
  let fn : α := ofNat c.falseNegatives
  let tn : α := ofNat c.trueNegatives
  let total := tp + fp + fn + tn
  let precision := ratio tp (tp + fp)
  let sensitivity := ratio tp (tp + fn)
  let phi := phiOf tp fp fn tn
  let phiMax := phiMaxOf tp fp fn total
  { precision
    sensitivity
    f1 := ratio (ofNat 2 * precision * sensitivity) (precision + sensitivity)
    accuracy := ratio (tp + tn) total
    specificity := ratio tn (tn + fp)
    phi
    phiMax
    phiOverPhiMax := ratio phi phiMax }

/-- The scores that a function makes of each score. -/
def map {β : Type} (f : α → β) (s : Scores α) : Scores β :=
  ⟨f s.precision, f s.sensitivity, f s.f1, f s.accuracy, f s.specificity, f s.phi, f s.phiMax,
    f s.phiOverPhiMax⟩

/-- The scores that a function makes of each two scores. -/
def zipWith (f : α → α → α) (s t : Scores α) : Scores α :=
  ⟨f s.precision t.precision, f s.sensitivity t.sensitivity, f s.f1 t.f1, f s.accuracy t.accuracy,
    f s.specificity t.specificity, f s.phi t.phi, f s.phiMax t.phiMax,
    f s.phiOverPhiMax t.phiOverPhiMax⟩

/-- The scores that are all the same number. -/
def constant (x : α) : Scores α := ⟨x, x, x, x, x, x, x, x⟩

end Scores

/-- The counts and the scores of one run, or of several on average. -/
structure Metrics (α : Type) where
  confusion : Confusion
  scores : Scores α

namespace Metrics

variable {α : Type} [ScoreArithmetic α]

open ScoreArithmetic (ofNat)

/-- The metrics that follow from the counts. -/
def ofConfusion (c : Confusion) : Metrics α := ⟨c, .ofConfusion c⟩

/-- The sum of some numbers, from the first on. -/
def sum (xs : List α) : α := xs.foldl (· + ·) (ofNat 0)

/-- The mean of each score with a weight for each run. -/
def meanScores (weight : Metrics α → α) (runs : List (Metrics α)) : Scores α :=
  let total := sum (runs.map weight)
  let weighted := runs.foldl
    (fun sums run => sums.zipWith (fun sum score => sum + weight run * score) run.scores)
    (Scores.constant (ofNat 0))
  weighted.map fun score => Scores.ratio score total

/-- Refuses an empty list of runs. -/
def ensureSome (runs : List (Metrics α)) : Except TraceError Unit :=
  if runs.isEmpty then .error (.invalidArgument .nothingToAverage) else .ok ()

/-- The metrics of two runs taken together, which follow from the sums of their counts. -/
def pool (a b : Metrics α) : Metrics α := ofConfusion (a.confusion + b.confusion)

/-- The metrics of several runs taken together, of which there must be some. -/
def summed (runs : List (Metrics α)) : Except TraceError (Metrics α) := do
  ensureSome runs
  return runs.foldl pool (ofConfusion .zero)

/-- The counts of several runs taken together and the means of their scores. -/
def averaged (weight : Metrics α → α) (runs : List (Metrics α)) :
    Except TraceError (Metrics α) := do
  let sum ← summed runs
  return { sum with scores := meanScores weight runs }

/-- The average in which every run counts the same. -/
def macroAverage (runs : List (Metrics α)) : Except TraceError (Metrics α) :=
  averaged (fun _ => ofNat 1) runs

/-- The average in which a run counts by the number of its correct links. -/
def weightedAverage (runs : List (Metrics α)) : Except TraceError (Metrics α) :=
  averaged (fun run => ofNat run.confusion.goldSize) runs

/-- The scores of all candidates of the runs taken together. -/
def microAverage (runs : List (Metrics α)) : Except TraceError (Metrics α) := summed runs

/-- The metrics on one line. -/
def render (m : Metrics Float) : String :=
  let three := Decimal.fixed 3
  let s := m.scores
  let c := m.confusion
  s!"precision {three s.precision}  recall {three s.sensitivity}  f1 {three s.f1}  " ++
    s!"accuracy {three s.accuracy}  specificity {three s.specificity}  phi {three s.phi}  " ++
    s!"(tp {c.truePositives}, fp {c.falsePositives}, fn {c.falseNegatives}, " ++
    s!"tn {c.trueNegatives})"

end Metrics

end TraceRecovery
