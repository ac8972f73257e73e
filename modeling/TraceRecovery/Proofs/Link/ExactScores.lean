import Mathlib.Analysis.Real.Sqrt
import TraceRecovery.Link.Metrics

/-!
# Scores in exact arithmetic

The scores of counts over the real numbers, where no operation is rounded. The quotients by 0 that
scores set to 0 are 0 in the real numbers anyway (`ratio_eq`).

The marginals of counts are the numbers of candidates that are found, correct, not found and not
correct. With `L` the product of the lesser number of either kind and `G` that of the greater ones,
both correlations are quotients by the same root: `phi` is `(tp tn - fp fn) / √(L G)` and `phiMax`
is `L / √(L G)` (`phi_eq`, `phiMax_eq`). As `L` exceeds `tp tn - fp fn` by the lesser of `fp` and
`fn` times the number of candidates (`determinant_add`), no correlation is above `phiMax`, and it is
reached by counts with the same marginals (`isGreatest_phiMax`).
-/

namespace TraceRecovery

noncomputable instance : ScoreArithmetic ℝ where
  ofNat n := n
  sqrt := Real.sqrt
  isZero x := decide (x = 0)
  below a b := decide (a < b)

/-! ## Marginals -/

namespace Confusion

/-- The counts with found and correct links exchanged. -/
def exchanged (c : Confusion) : Confusion :=
  ⟨c.truePositives, c.falseNegatives, c.falsePositives, c.trueNegatives⟩

/-- The lesser of the numbers of candidates that are found and that are correct, times the lesser of
the numbers of those that are not found and that are not correct. -/
def lesserMarginals (c : Confusion) : Nat :=
  min c.foundSize c.goldSize * (c.total - max c.foundSize c.goldSize)

/-- The greater of these numbers, multiplied likewise. -/
def greaterMarginals (c : Confusion) : Nat :=
  max c.foundSize c.goldSize * (c.total - min c.foundSize c.goldSize)

variable (c : Confusion)

theorem lesserMarginals_eq : c.lesserMarginals =
    (c.truePositives + min c.falsePositives c.falseNegatives) *
      (c.trueNegatives + min c.falsePositives c.falseNegatives) := by
  unfold lesserMarginals foundSize goldSize total
  congr 1 <;> omega

theorem greaterMarginals_eq : c.greaterMarginals =
    (c.truePositives + max c.falsePositives c.falseNegatives) *
      (c.trueNegatives + max c.falsePositives c.falseNegatives) := by
  unfold greaterMarginals foundSize goldSize total
  congr 1 <;> omega

theorem lesserMarginals_le : c.lesserMarginals ≤ c.greaterMarginals := by
  rw [lesserMarginals_eq, greaterMarginals_eq]
  exact Nat.mul_le_mul (Nat.add_le_add_left min_le_max _) (Nat.add_le_add_left min_le_max _)

theorem lesserMarginals_mul_greaterMarginals : (c.lesserMarginals * c.greaterMarginals : ℝ) =
    (c.truePositives + c.falsePositives) * (c.truePositives + c.falseNegatives) *
      (c.trueNegatives + c.falsePositives) * (c.trueNegatives + c.falseNegatives) := by
  rw [lesserMarginals_eq, greaterMarginals_eq]
  push_cast
  rcases le_total (c.falsePositives : ℝ) c.falseNegatives with h | h
  · rw [min_eq_left h, max_eq_right h]
    ring
  · rw [min_eq_right h, max_eq_left h]
    ring

theorem min_eq_zero_of_lesserMarginals (h : c.lesserMarginals = 0) :
    min c.falsePositives c.falseNegatives = 0 := by
  rw [lesserMarginals_eq] at h
  rcases Nat.mul_eq_zero.mp h with h | h
  · exact (Nat.add_eq_zero_iff.mp h).2
  · exact (Nat.add_eq_zero_iff.mp h).2

theorem min_mul_total_eq_zero_iff : min c.falsePositives c.falseNegatives * c.total = 0 ↔
    c.falsePositives = 0 ∨ c.falseNegatives = 0 := by
  unfold total
  rw [Nat.mul_eq_zero]
  omega

/-- The square of a determinant of numbers that are not negative is at most the product of the sums
of the rows and columns. -/
theorem sq_sub_mul_le {p q r s : ℝ} (hp : 0 ≤ p) (hq : 0 ≤ q) (hr : 0 ≤ r) (hs : 0 ≤ s) :
    (p * s - q * r) ^ 2 ≤ (p + q) * (p + r) * (s + q) * (s + r) := by
  have hps := mul_nonneg hp hs
  have hqr := mul_nonneg hq hr
  have hrows : p * s + q * r ≤ (p + q) * (s + r) := by nlinarith [mul_nonneg hp hr, mul_nonneg hq hs]
  have hcolumns : p * s + q * r ≤ (p + r) * (s + q) := by
    nlinarith [mul_nonneg hp hq, mul_nonneg hr hs]
  calc (p * s - q * r) ^ 2
      ≤ (p * s + q * r) ^ 2 := sq_le_sq' (by linarith) (by linarith)
    _ = (p * s + q * r) * (p * s + q * r) := sq _
    _ ≤ (p + q) * (s + r) * ((p + r) * (s + q)) :=
      mul_le_mul hrows hcolumns (by positivity) (by positivity)
    _ = (p + q) * (p + r) * (s + q) * (s + r) := by ring

/-- The determinant of the four counts. -/
def determinant : ℝ := c.truePositives * c.trueNegatives - c.falsePositives * c.falseNegatives

theorem determinant_add : c.determinant + (min c.falsePositives c.falseNegatives * c.total : Nat) =
    c.lesserMarginals := by
  rw [lesserMarginals_eq]
  unfold determinant total
  push_cast
  rcases le_total (c.falsePositives : ℝ) c.falseNegatives with h | h
  · rw [min_eq_left h]
    ring
  · rw [min_eq_right h]
    ring

theorem determinant_sq_le : c.determinant ^ 2 ≤ c.lesserMarginals * c.greaterMarginals := by
  rw [lesserMarginals_mul_greaterMarginals, determinant]
  exact sq_sub_mul_le (Nat.cast_nonneg _) (Nat.cast_nonneg _) (Nat.cast_nonneg _)
    (Nat.cast_nonneg _)

end Confusion

/-! ## Quotients -/

namespace Scores

theorem ratio_eq (x y : ℝ) : ratio x y = x / y := by
  unfold ratio
  split
  · rename_i h
    rw [of_decide_eq_true h, div_zero]
    exact Nat.cast_zero
  · rfl

theorem lesser_eq (a b : ℝ) : lesser a b = min a b := by
  rw [lesser, min_comm, min_def_lt]
  exact if_congr decide_eq_true_iff rfl rfl

theorem greater_eq (a b : ℝ) : greater a b = max a b := by
  rw [greater, max_def_lt]
  exact if_congr decide_eq_true_iff rfl rfl

/-- A part of a sum of two is a share of it. -/
theorem div_add_mem {a b : ℝ} (ha : 0 ≤ a) (hb : 0 ≤ b) : a / (a + b) ∈ Set.Icc (0 : ℝ) 1 :=
  ⟨by positivity, div_le_one_of_le₀ (le_add_of_nonneg_right hb) (by positivity)⟩

theorem sqrt_div_eq {a b : ℝ} (ha : 0 ≤ a) (hb : 0 ≤ b) : √(a / b) = a / √(a * b) := by
  rw [Real.sqrt_div' a hb, Real.sqrt_mul ha, div_mul_eq_div_div, Real.div_sqrt]

/-! ## Scores -/

section Scores

variable (c : Confusion)

theorem precision_eq : (ofConfusion c : Scores ℝ).precision =
    c.truePositives / (c.truePositives + c.falsePositives) :=
  ratio_eq _ _

theorem sensitivity_eq : (ofConfusion c : Scores ℝ).sensitivity =
    c.truePositives / (c.truePositives + c.falseNegatives) :=
  ratio_eq _ _

theorem specificity_eq : (ofConfusion c : Scores ℝ).specificity =
    c.trueNegatives / (c.trueNegatives + c.falsePositives) :=
  ratio_eq _ _

theorem accuracy_eq : (ofConfusion c : Scores ℝ).accuracy =
    (c.truePositives + c.trueNegatives) /
      (c.truePositives + c.trueNegatives + (c.falsePositives + c.falseNegatives)) := by
  refine (ratio_eq _ _).trans ?_
  show ((c.truePositives : ℝ) + c.trueNegatives) /
    (c.truePositives + c.falsePositives + c.falseNegatives + c.trueNegatives) = _
  ring_nf

/-- The harmonic mean of precision and sensitivity counts correct links twice. -/
theorem f1_eq : (ofConfusion c : Scores ℝ).f1 =
    2 * c.truePositives / (2 * c.truePositives + (c.falsePositives + c.falseNegatives)) := by
  have hmean : (ofConfusion c : Scores ℝ).f1 =
      (2 : Nat) * (ofConfusion c : Scores ℝ).precision * (ofConfusion c : Scores ℝ).sensitivity /
        ((ofConfusion c : Scores ℝ).precision + (ofConfusion c : Scores ℝ).sensitivity) :=
    ratio_eq _ _
  rw [hmean, precision_eq, sensitivity_eq]
  rcases Nat.eq_zero_or_pos c.truePositives with htp | htp
  · simp [htp]
  · have htp : (0 : ℝ) < c.truePositives := Nat.cast_pos.mpr htp
    have hfp : (0 : ℝ) ≤ c.falsePositives := Nat.cast_nonneg _
    have hfn : (0 : ℝ) ≤ c.falseNegatives := Nat.cast_nonneg _
    field_simp
    push_cast
    ring

theorem phi_eq : (ofConfusion c : Scores ℝ).phi =
    c.determinant / √(c.lesserMarginals * c.greaterMarginals) := by
  rw [Confusion.lesserMarginals_mul_greaterMarginals]
  exact ratio_eq _ _

theorem phiMaxOfShares_eq (found gold : ℝ) : phiMaxOfShares found gold =
    √(min found gold * (1 - max found gold) / (max found gold * (1 - min found gold))) := by
  rw [phiMaxOfShares, lesser_eq, greater_eq]
  show √(ratio _ _) = _
  rw [ratio_eq]
  simp only [ScoreArithmetic.ofNat, Nat.cast_one]

theorem cast_total : (c.total : ℝ) =
    c.truePositives + c.falsePositives + c.falseNegatives + c.trueNegatives := by
  unfold Confusion.total
  push_cast
  rfl

/-- The shares of the lesser marginals, divided by those of the greater ones. -/
theorem phiMax_eq_sqrt : (ofConfusion c : Scores ℝ).phiMax =
    √(c.lesserMarginals / c.greaterMarginals) := by
  by_cases htotal : (c.total : ℝ) = 0
  · have hnone : c.lesserMarginals = 0 := by
      have h : c.total = 0 := Nat.cast_eq_zero.mp htotal
      rw [Confusion.lesserMarginals, h, Nat.zero_sub, Nat.mul_zero]
    rw [hnone, Nat.cast_zero, zero_div, Real.sqrt_zero]
    refine (if_pos ?_).trans Nat.cast_zero
    exact decide_eq_true ((cast_total c).symm.trans htotal)
  · have hshares : (ofConfusion c : Scores ℝ).phiMax =
        phiMaxOfShares ((c.truePositives + c.falsePositives) / c.total : ℝ)
          ((c.truePositives + c.falseNegatives) / c.total) := by
      rw [cast_total] at htotal ⊢
      exact if_neg fun hzero => htotal (of_decide_eq_true hzero)
    have hminmax := min_add_max (c.falsePositives : ℝ) c.falseNegatives
    have hlow : 1 - (c.truePositives + max (c.falsePositives : ℝ) c.falseNegatives) / c.total =
        (c.trueNegatives + min (c.falsePositives : ℝ) c.falseNegatives) / c.total := by
      rw [eq_div_iff htotal, sub_mul, div_mul_cancel₀ _ htotal, cast_total]
      linarith
    have hhigh : 1 - (c.truePositives + min (c.falsePositives : ℝ) c.falseNegatives) / c.total =
        (c.trueNegatives + max (c.falsePositives : ℝ) c.falseNegatives) / c.total := by
      rw [eq_div_iff htotal, sub_mul, div_mul_cancel₀ _ htotal, cast_total]
      linarith
    rw [hshares, phiMaxOfShares_eq, min_div_div_right (Nat.cast_nonneg _),
      max_div_div_right (Nat.cast_nonneg _), min_add_add_left, max_add_add_left, hlow, hhigh,
      div_mul_div_comm, div_mul_div_comm, div_div_div_cancel_right₀ (mul_ne_zero htotal htotal)]
    rw [Confusion.lesserMarginals_eq, Confusion.greaterMarginals_eq]
    push_cast
    rfl

theorem phiMax_eq : (ofConfusion c : Scores ℝ).phiMax =
    c.lesserMarginals / √(c.lesserMarginals * c.greaterMarginals) := by
  rw [phiMax_eq_sqrt, sqrt_div_eq (Nat.cast_nonneg _) (Nat.cast_nonneg _)]

theorem phi_sq_le : (ofConfusion c : Scores ℝ).phi ^ 2 ≤ 1 := by
  rw [phi_eq, div_pow, Real.sq_sqrt (by positivity)]
  exact div_le_one_of_le₀ c.determinant_sq_le (by positivity)

theorem phi_le_phiMax : (ofConfusion c : Scores ℝ).phi ≤ (ofConfusion c : Scores ℝ).phiMax := by
  rw [phi_eq, phiMax_eq, ← c.determinant_add]
  exact div_le_div_of_nonneg_right (le_add_of_nonneg_right (Nat.cast_nonneg _))
    (Real.sqrt_nonneg _)

/-- Where a root is 0, so is the product of the lesser marginals, and with it `fp` or `fn`. -/
theorem phi_eq_phiMax_iff : (ofConfusion c : Scores ℝ).phi = (ofConfusion c : Scores ℝ).phiMax ↔
    c.falsePositives = 0 ∨ c.falseNegatives = 0 := by
  rw [phi_eq, phiMax_eq, ← c.min_mul_total_eq_zero_iff]
  constructor
  · intro h
    by_cases hroot : √(c.lesserMarginals * c.greaterMarginals : ℝ) = 0
    · have hproduct : c.lesserMarginals * c.greaterMarginals = 0 := by
        exact_mod_cast (Real.sqrt_eq_zero (by positivity)).mp hroot
      have hlesser : c.lesserMarginals = 0 := by
        rcases Nat.mul_eq_zero.mp hproduct with h | h
        · exact h
        · exact Nat.le_zero.mp (h ▸ c.lesserMarginals_le)
      rw [c.min_eq_zero_of_lesserMarginals hlesser, Nat.zero_mul]
    · have hdet := c.determinant_add
      rw [← (div_left_inj' hroot).mp h, add_eq_left] at hdet
      exact_mod_cast hdet
  · intro h
    rw [← c.determinant_add, h, Nat.cast_zero, add_zero]

theorem phiOverPhiMax_le : (ofConfusion c : Scores ℝ).phiOverPhiMax ≤ 1 := by
  have hratio : (ofConfusion c : Scores ℝ).phiOverPhiMax =
      (ofConfusion c : Scores ℝ).phi / (ofConfusion c : Scores ℝ).phiMax :=
    ratio_eq _ _
  have hnonneg : 0 ≤ (ofConfusion c : Scores ℝ).phiMax := by
    rw [phiMax_eq_sqrt]
    exact Real.sqrt_nonneg _
  rw [hratio]
  exact div_le_one_of_le₀ (phi_le_phiMax c) hnonneg

/-! ## Counts with the same marginals -/

variable {c} in
theorem phiMax_congr {d : Confusion} (hfound : d.foundSize = c.foundSize)
    (hgold : d.goldSize = c.goldSize) (htotal : d.total = c.total) :
    (ofConfusion d : Scores ℝ).phiMax = (ofConfusion c : Scores ℝ).phiMax := by
  simp only [phiMax_eq, Confusion.lesserMarginals, Confusion.greaterMarginals, hfound, hgold, htotal]

/-- Of all counts with as many links found, correct links and candidates, those with as many links
as possible both found and correct have the greatest correlation. -/
theorem isGreatest_phiMax : IsGreatest
    { x | ∃ d : Confusion, d.foundSize = c.foundSize ∧ d.goldSize = c.goldSize ∧
      d.total = c.total ∧ (ofConfusion d : Scores ℝ).phi = x }
    (ofConfusion c : Scores ℝ).phiMax := by
  constructor
  · let m := min c.falsePositives c.falseNegatives
    let best : Confusion := ⟨c.truePositives + m, c.falsePositives - m, c.falseNegatives - m,
      c.trueNegatives + m⟩
    have hfound : best.foundSize = c.foundSize := by
      simp only [Confusion.foundSize, best, m]
      omega
    have hgold : best.goldSize = c.goldSize := by
      simp only [Confusion.goldSize, best, m]
      omega
    have htotal : best.total = c.total := by
      simp only [Confusion.total, best, m]
      omega
    have hnone : best.falsePositives = 0 ∨ best.falseNegatives = 0 := by
      simp only [best, m]
      omega
    exact ⟨best, hfound, hgold, htotal,
      ((phi_eq_phiMax_iff best).mpr hnone).trans (phiMax_congr hfound hgold htotal)⟩
  · rintro x ⟨d, hfound, hgold, htotal, rfl⟩
    exact (phi_le_phiMax d).trans_eq (phiMax_congr hfound hgold htotal)

/-! ## Exchanging found and correct links -/

theorem lesserMarginals_exchanged : c.exchanged.lesserMarginals = c.lesserMarginals := by
  simp only [Confusion.lesserMarginals_eq, Confusion.exchanged, min_comm]

theorem greaterMarginals_exchanged : c.exchanged.greaterMarginals = c.greaterMarginals := by
  simp only [Confusion.greaterMarginals_eq, Confusion.exchanged, max_comm]

theorem determinant_exchanged : c.exchanged.determinant = c.determinant := by
  simp only [Confusion.determinant, Confusion.exchanged, mul_comm]

/-- In exact arithmetic, precision, sensitivity, `f1`, accuracy and specificity are between 0 and 1,
and `f1` counts correct links twice. The correlation `phi` has a square of at most 1 and is at most
`phiMax`, which it reaches exactly if all links found are correct or all correct links are found. If
found and correct links are exchanged, then so are precision and sensitivity, and the scores that
treat both alike stay as they are. -/
theorem scores_obey_bounds (c : Confusion) :
    let s : Scores ℝ := ofConfusion c
    let t : Scores ℝ := ofConfusion c.exchanged
    (s.precision ∈ Set.Icc 0 1 ∧ s.sensitivity ∈ Set.Icc 0 1 ∧ s.f1 ∈ Set.Icc 0 1 ∧
      s.accuracy ∈ Set.Icc 0 1 ∧ s.specificity ∈ Set.Icc 0 1) ∧
    (s.f1 = if 2 * c.truePositives + c.falsePositives + c.falseNegatives = 0 then (0 : ℝ)
      else 2 * (c.truePositives : ℝ) /
        (2 * (c.truePositives : ℝ) + c.falsePositives + c.falseNegatives)) ∧
    s.phi ^ 2 ≤ 1 ∧ s.phi ≤ s.phiMax ∧
    (s.phi = s.phiMax ↔ c.falsePositives = 0 ∨ c.falseNegatives = 0) ∧
    s.phiOverPhiMax ≤ 1 ∧
    t.precision = s.sensitivity ∧ t.sensitivity = s.precision ∧ t.f1 = s.f1 ∧
    t.accuracy = s.accuracy ∧ t.phi = s.phi ∧ t.phiMax = s.phiMax := by
  intro s t
  refine ⟨⟨?_, ?_, ?_, ?_, ?_⟩, ?_, phi_sq_le c, phi_le_phiMax c, phi_eq_phiMax_iff c,
    phiOverPhiMax_le c, rfl, rfl, ?_, ?_, ?_, ?_⟩
  · exact precision_eq c ▸ div_add_mem (Nat.cast_nonneg _) (Nat.cast_nonneg _)
  · exact sensitivity_eq c ▸ div_add_mem (Nat.cast_nonneg _) (Nat.cast_nonneg _)
  · exact f1_eq c ▸ div_add_mem (by positivity) (by positivity)
  · exact accuracy_eq c ▸ div_add_mem (by positivity) (by positivity)
  · exact specificity_eq c ▸ div_add_mem (Nat.cast_nonneg _) (Nat.cast_nonneg _)
  · rw [show s.f1 = _ from f1_eq c, ← add_assoc]
    split
    · rename_i h
      have htp : c.truePositives = 0 := by omega
      rw [htp, Nat.cast_zero, mul_zero, zero_div]
    · rfl
  · rw [show t.f1 = _ from f1_eq c.exchanged, show s.f1 = _ from f1_eq c]
    show 2 * (c.truePositives : ℝ) / (2 * c.truePositives + (c.falseNegatives + c.falsePositives)) = _
    rw [add_comm (c.falseNegatives : ℝ)]
  · rw [show t.accuracy = _ from accuracy_eq c.exchanged, show s.accuracy = _ from accuracy_eq c]
    show ((c.truePositives : ℝ) + c.trueNegatives) /
      (c.truePositives + c.trueNegatives + (c.falseNegatives + c.falsePositives)) = _
    rw [add_comm (c.falseNegatives : ℝ)]
  · rw [show t.phi = _ from phi_eq c.exchanged, determinant_exchanged, lesserMarginals_exchanged,
      greaterMarginals_exchanged, ← phi_eq]
  · rw [show t.phiMax = _ from phiMax_eq c.exchanged, lesserMarginals_exchanged,
      greaterMarginals_exchanged, ← phiMax_eq]

end Scores

end Scores

end TraceRecovery
