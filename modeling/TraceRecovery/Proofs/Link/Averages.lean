import TraceRecovery.Proofs.Link.ExactScores
import TraceRecovery.Proofs.Link.Pooling

/-!
# Averages of scores in exact arithmetic

Over the real numbers each score of an average is a weighted mean of that score of the runs
(`Metrics.get_meanScores`), so it lies between the least and the greatest of them as long as some
run has weight (`Metrics.between_meanScores`), and only the proportions of the weights matter
(`Metrics.meanScores_scaled`). The weighted average weighs a sensitivity by the number that it was
divided by, which leaves the sum of the links that are rightly found: its sensitivity is the one of
the runs taken together (`Metrics.sensitivity_meanScores`).
-/

namespace TraceRecovery

/-! ## Scores one by one -/

/-- The names of the scores. -/
inductive Score where
  | precision
  | sensitivity
  | f1
  | accuracy
  | specificity
  | phi
  | phiMax
  | phiOverPhiMax
deriving DecidableEq, Repr

namespace Scores

variable {α : Type}

/-- The score with a name. -/
def get (s : Scores α) : Score → α
  | .precision => s.precision
  | .sensitivity => s.sensitivity
  | .f1 => s.f1
  | .accuracy => s.accuracy
  | .specificity => s.specificity
  | .phi => s.phi
  | .phiMax => s.phiMax
  | .phiOverPhiMax => s.phiOverPhiMax

theorem ext_get {s t : Scores α} (h : ∀ i, s.get i = t.get i) : s = t := by
  cases s
  cases t
  simp only [mk.injEq]
  exact ⟨h .precision, h .sensitivity, h .f1, h .accuracy, h .specificity, h .phi, h .phiMax,
    h .phiOverPhiMax⟩

theorem get_map (f : α → α) (s : Scores α) (i : Score) : (s.map f).get i = f (s.get i) := by
  cases i <;> rfl

theorem get_zipWith (f : α → α → α) (s t : Scores α) (i : Score) :
    (s.zipWith f t).get i = f (s.get i) (t.get i) := by
  cases i <;> rfl

theorem get_constant (x : α) (i : Score) : (constant x).get i = x := by
  cases i <;> rfl

end Scores

namespace Confusion

theorem goldSize_sum (counts : List Confusion) :
    counts.sum.goldSize = (counts.map goldSize).sum := by
  rw [sum_eq, goldSize, ← List.sum_map_add]
  rfl

theorem truePositives_sum (counts : List Confusion) :
    counts.sum.truePositives = (counts.map truePositives).sum := by
  rw [sum_eq]

end Confusion

/-! ## Weighted means -/

namespace Metrics

/-- A number lies between the least and the greatest of some numbers. -/
def Between (xs : List ℝ) (x : ℝ) : Prop :=
  ∃ lo hi, IsLeast { y | y ∈ xs } lo ∧ IsGreatest { y | y ∈ xs } hi ∧ x ∈ Set.Icc lo hi

theorem between_of_forall {xs : List ℝ} {x : ℝ} (hxs : xs ≠ [])
    (h : ∀ lo hi, (∀ y ∈ xs, y ∈ Set.Icc lo hi) → x ∈ Set.Icc lo hi) : Between xs x := by
  have hne : xs.toFinset.Nonempty := List.toFinset_nonempty_iff xs |>.mpr hxs
  have hset : (xs.toFinset : Set ℝ) = { y | y ∈ xs } := List.coe_toFinset xs
  have hleast := hset ▸ xs.toFinset.isLeast_min' hne
  have hgreatest := hset ▸ xs.toFinset.isGreatest_max' hne
  exact ⟨_, _, hleast, hgreatest, h _ _ fun y hy => ⟨hleast.2 hy, hgreatest.2 hy⟩⟩

variable {runs : List (Metrics ℝ)} {weight : Metrics ℝ → ℝ} {counts : List Confusion}

theorem sum_eq (xs : List ℝ) : sum xs = xs.sum := by
  rw [sum, List.sum_eq_foldl]
  simp only [ScoreArithmetic.ofNat, Nat.cast_zero]

theorem get_foldl_weighted (weight : Metrics ℝ → ℝ) (runs : List (Metrics ℝ)) (sums : Scores ℝ)
    (i : Score) :
    (runs.foldl
        (fun sums run => sums.zipWith (fun sum score => sum + weight run * score) run.scores)
        sums).get i =
      sums.get i + (runs.map fun run => weight run * run.scores.get i).sum := by
  induction runs generalizing sums with
  | nil => simp
  | cons run runs ih =>
    rw [List.foldl_cons, ih, Scores.get_zipWith, List.map_cons, List.sum_cons, ← add_assoc]

/-- Each mean is the sum of the weighted scores, divided by the sum of the weights. -/
theorem get_meanScores (weight : Metrics ℝ → ℝ) (runs : List (Metrics ℝ)) (i : Score) :
    (meanScores weight runs).get i =
      (runs.map fun run => weight run * run.scores.get i).sum / (runs.map weight).sum := by
  rw [meanScores, Scores.get_map, Scores.ratio_eq, get_foldl_weighted, Scores.get_constant, sum_eq]
  simp [ScoreArithmetic.ofNat]

/-- A mean lies between the least and the greatest of the scores, if some run has weight. -/
theorem between_meanScores (hweight : ∀ run ∈ runs, 0 ≤ weight run)
    (hsome : ∃ run ∈ runs, 0 < weight run) (i : Score) :
    Between (runs.map fun run => run.scores.get i) ((meanScores weight runs).get i) := by
  obtain ⟨first, hfirst, hpos⟩ := hsome
  have hpos : 0 < (runs.map weight).sum :=
    hpos.trans_le (List.single_le_sum (List.forall_mem_map.mpr hweight) _
      (List.mem_map_of_mem hfirst))
  have hruns : runs ≠ [] := List.ne_nil_of_mem hfirst
  refine between_of_forall (by simpa using hruns) fun lo hi hmem => ?_
  rw [get_meanScores, Set.mem_Icc, le_div_iff₀ hpos, div_le_iff₀ hpos, ← List.sum_map_mul_left,
    ← List.sum_map_mul_left]
  refine ⟨List.sum_le_sum fun run hrun => ?_, List.sum_le_sum fun run hrun => ?_⟩
  · rw [mul_comm]
    exact mul_le_mul_of_nonneg_left (hmem _ (List.mem_map_of_mem hrun)).1 (hweight run hrun)
  · rw [mul_comm hi]
    exact mul_le_mul_of_nonneg_left (hmem _ (List.mem_map_of_mem hrun)).2 (hweight run hrun)

/-- Weights that are the same multiple of others make the same means. -/
theorem meanScores_scaled {weight' : Metrics ℝ → ℝ} {k : ℝ} (hk : k ≠ 0)
    (h : ∀ run ∈ runs, weight' run = k * weight run) :
    meanScores weight' runs = meanScores weight runs := by
  refine Scores.ext_get fun i => ?_
  have hweights : runs.map weight' = runs.map fun run => k * weight run := List.map_congr_left h
  have hscores : (runs.map fun run => weight' run * run.scores.get i) =
      runs.map fun run => k * (weight run * run.scores.get i) :=
    List.map_congr_left fun run hrun => by rw [h run hrun, mul_assoc]
  rw [get_meanScores, get_meanScores, hweights, hscores, List.sum_map_mul_left,
    List.sum_map_mul_left, mul_div_mul_left _ _ hk]

/-! ## Runs that were counted -/

/-- A sensitivity, multiplied by the number that it was divided by. -/
theorem goldSize_mul_sensitivity (c : Confusion) :
    c.goldSize * (Scores.ofConfusion c : Scores ℝ).sensitivity = c.truePositives := by
  rw [Scores.sensitivity_eq, ← Nat.cast_add]
  rcases Nat.eq_zero_or_pos c.goldSize with hnone | hsome
  · have htp : c.truePositives = 0 := (Nat.add_eq_zero_iff.mp hnone).1
    rw [hnone, htp, Nat.cast_zero, zero_mul]
  · exact mul_div_cancel₀ _ (Nat.cast_ne_zero.mpr hsome.ne')

/-- Weighted by the number of correct links, sensitivities have as their mean the sensitivity of the
runs taken together. -/
theorem sensitivity_meanScores (counts : List Confusion) :
    (meanScores (fun run => (run.confusion.goldSize : ℝ)) (counts.map ofConfusion)).sensitivity =
      (Scores.ofConfusion counts.sum : Scores ℝ).sensitivity := by
  have hmean := get_meanScores (fun run => (run.confusion.goldSize : ℝ)) (counts.map ofConfusion)
    .sensitivity
  have hproducts : (fun c => (c.goldSize : ℝ) * (Scores.ofConfusion c : Scores ℝ).sensitivity) =
      fun c => (c.truePositives : ℝ) := funext goldSize_mul_sensitivity
  rw [List.map_map, List.map_map] at hmean
  calc _ = (counts.map fun c =>
          (c.goldSize : ℝ) * (Scores.ofConfusion c : Scores ℝ).sensitivity).sum /
        (counts.map fun c => (c.goldSize : ℝ)).sum := hmean
    _ = counts.sum.truePositives / counts.sum.goldSize := by
        rw [hproducts, Confusion.goldSize_sum, Confusion.truePositives_sum, Nat.cast_list_sum,
          Nat.cast_list_sum, List.map_map, List.map_map]
        rfl
    _ = _ := by rw [Scores.sensitivity_eq, Confusion.goldSize, Nat.cast_add]

/-- In exact arithmetic, the weighted average of runs has the sensitivity of all runs taken
together, which is 0 if no run has a correct link to find. Every score of the unweighted average
lies between the least and the greatest of the runs, and so does every score of the weighted average
if some run has a correct link to find. If all runs have the same number of them, both averages are
equal. -/
theorem averages_agree (counts : List Confusion) (h : counts ≠ []) :
    let runs : List (Metrics ℝ) := counts.map ofConfusion
    ∃ together plain weighted, microAverage runs = .ok together ∧ macroAverage runs = .ok plain ∧
      weightedAverage runs = .ok weighted ∧
      weighted.scores.sensitivity = together.scores.sensitivity ∧
      ((∀ c ∈ counts, c.goldSize = 0) → together.scores.sensitivity = 0) ∧
      (∀ i, Between (runs.map fun run => run.scores.get i) (plain.scores.get i)) ∧
      ((∃ c ∈ counts, 0 < c.goldSize) →
        ∀ i, Between (runs.map fun run => run.scores.get i) (weighted.scores.get i)) ∧
      ∀ n, 0 < n → (∀ c ∈ counts, c.goldSize = n) → weighted = plain := by
  intro runs
  have hruns : runs ≠ [] := by simpa [runs] using h
  have hcounts : Metrics.counts runs = counts.sum := by
    simp [Metrics.counts, runs, ofConfusion, Function.comp_def]
  refine ⟨_, _, _, summed_of_ne_nil hruns, averaged_of_ne_nil hruns, averaged_of_ne_nil hruns,
    ?_, fun hnone => ?_, between_meanScores (fun run _ => ?_) ?_,
    fun hsome => between_meanScores (fun run _ => ?_) ?_, fun n hn hall => ?_⟩
  · rw [hcounts]
    exact sensitivity_meanScores counts
  · have hgold : counts.sum.goldSize = 0 := by
      rw [Confusion.goldSize_sum, List.sum_eq_zero_iff]
      simpa using hnone
    have htp : counts.sum.truePositives = 0 := (Nat.add_eq_zero_iff.mp hgold).1
    rw [hcounts]
    show (Scores.ofConfusion counts.sum : Scores ℝ).sensitivity = 0
    rw [Scores.sensitivity_eq, htp, Nat.cast_zero, zero_div]
  · exact Nat.cast_nonneg 1
  · exact ⟨_, List.head_mem hruns, Nat.cast_pos.mpr Nat.one_pos⟩
  · exact Nat.cast_nonneg _
  · obtain ⟨c, hc, hpos⟩ := hsome
    exact ⟨ofConfusion c, List.mem_map_of_mem hc, Nat.cast_pos.mpr hpos⟩
  · refine congrArg (mk _) (meanScores_scaled (k := n) (Nat.cast_ne_zero.mpr hn.ne') ?_)
    refine List.forall_mem_map.mpr fun c hc => ?_
    show (c.goldSize : ℝ) = n * (1 : Nat)
    rw [hall c hc, Nat.cast_one, mul_one]

/-- Of three runs the second has no correct link to find, and weighs nothing. Two runs with two
correct links each have equal averages. -/
theorem averages_agree_of_three :
    let runs : List (Metrics ℝ) := [⟨1, 1, 3, 3⟩, ⟨0, 2, 0, 5⟩, ⟨2, 0, 0, 1⟩].map ofConfusion
    let even : List (Metrics ℝ) := [⟨1, 4, 1, 0⟩, ⟨2, 0, 0, 3⟩].map ofConfusion
    (∃ weighted, weightedAverage runs = .ok weighted ∧ weighted.scores.sensitivity = 1 / 2 ∧
      Between (runs.map fun run => run.scores.precision) weighted.scores.precision) ∧
    ∃ m, weightedAverage even = .ok m ∧ macroAverage even = .ok m := by
  intro runs even
  obtain ⟨together, -, weighted, htogether, -, hweighted, hsame, -, -, hbetween, -⟩ :=
    averages_agree [⟨1, 1, 3, 3⟩, ⟨0, 2, 0, 5⟩, ⟨2, 0, 0, 1⟩] (List.cons_ne_nil _ _)
  obtain ⟨-, plain, m, -, hplain, hm, -, -, -, -, heven⟩ :=
    averages_agree [⟨1, 4, 1, 0⟩, ⟨2, 0, 0, 3⟩] (List.cons_ne_nil _ _)
  obtain rfl : m = plain := heven 2 (by decide) (by decide)
  refine ⟨⟨weighted, hweighted, ?_, hbetween (by decide) .precision⟩, m, hm, hplain⟩
  have hpooled : together = ofConfusion ⟨3, 3, 3, 9⟩ := (Except.ok.inj htogether).symm
  rw [hsame, hpooled]
  show (Scores.ofConfusion ⟨3, 3, 3, 9⟩ : Scores ℝ).sensitivity = 1 / 2
  rw [Scores.sensitivity_eq]
  norm_num

end Metrics

end TraceRecovery
