import TraceRecovery.Proofs.Confidence.Sign
import TraceRecovery.Proofs.Double.Sum

/-!
# Weighted means

The weighted mean of confidences is the quotient of two sums (`Aggregation.weightedSum`,
`Aggregation.totalWeight`), brought into the range of confidences. Both sums are numbers from zero
on whatever the weights are, and a total of zero is an abstention. So the mean fails exactly if both
sums are infinite (`Aggregation.exists_combine_weighted_iff`), as their quotient is then no number.
With two weights, this takes two defined values and weights whose sum is infinite
(`Aggregation.Overflows.isInf_add`).
-/

namespace TraceRecovery

namespace Aggregation

/-- The sum of the defined values, each multiplied with its weight. -/
def weightedSum (cs : List Confidence) (ws : List Float) : Float :=
  (definedWithWeights cs ws).foldl (fun s (v, w) => s + v * w) (0 : Float)

/-- The sum of the weights of the defined values. -/
def totalWeight (cs : List Confidence) (ws : List Float) : Float :=
  (definedWithWeights cs ws).foldl (fun t (_, w) => t + w) (0 : Float)

/-- The sum of the weights of the defined values is infinite, and so is that of the weighted
values. -/
def Overflows (cs : List Confidence) (ws : List Float) : Prop :=
  (weightedSum cs ws).isInf = true ∧ (totalWeight cs ws).isInf = true

variable {cs : List Confidence} {ws : List Float} {x : Float}

theorem weightedSum_eq (cs : List Confidence) (ws : List Float) :
    weightedSum cs ws = Double.sum ((definedWithWeights cs ws).map fun e => e.1 * e.2) := by
  rw [Double.sum, List.foldl_map]
  rfl

theorem totalWeight_eq (cs : List Confidence) (ws : List Float) :
    totalWeight cs ws = Double.sum ((definedWithWeights cs ws).map Prod.snd) := by
  rw [Double.sum, List.foldl_map]
  rfl

theorem combine_weighted_eq (h : (weighted ws).validate cs.length = .ok ()) :
    (weighted ws).combine cs =
      if totalWeight cs ws == 0 then .ok .unset
      else Confidence.ofValue (clamp (weightedSum cs ws / totalWeight cs ws)) := by
  simp only [combine, h]
  rfl

/-- Numbers, and nothing else, can be brought into the range of confidences. -/
theorem clamp_mem_iff : 0 ≤ clamp x ∧ clamp x ≤ 1 ↔ Double.IsNumber x := by
  have hzero : Double.IsNumber 0 := Double.isNumber_of_isFinite rfl
  have hone : Double.IsNumber 1 := Double.isNumber_of_isFinite rfl
  constructor
  · intro h
    by_contra hx
    have hneg : ¬ x < 0 := fun hlt => hx (Double.lt_iff.mp hlt).1
    have hlarge : ¬ 1 < x := fun hlt => hx (Double.lt_iff.mp hlt).2.1
    simp only [clamp, if_neg hneg, if_neg hlarge] at h
    exact hx (Double.isNumber_of_le h.1).2
  · intro hx
    have hlower : 0 ≤ if x < 0 then 0 else x := by
      split
      · exact Double.le_iff.mpr ⟨hzero, hzero, le_rfl⟩
      · exact (Double.not_lt_iff hx hzero).mp ‹_›
    show (0 ≤ if 1 < (if x < 0 then 0 else x) then 1 else if x < 0 then 0 else x) ∧
      (if 1 < (if x < 0 then 0 else x) then 1 else if x < 0 then 0 else x) ≤ 1
    generalize (if x < 0 then 0 else x) = y at hlower
    split
    · exact ⟨by decide, Double.le_iff.mpr ⟨hone, hone, le_rfl⟩⟩
    · exact ⟨hlower, (Double.not_lt_iff hone (Double.isNumber_of_le hlower).2).mp ‹_›⟩

/-! ## The two sums -/

section Sums

variable (hws : ∀ w ∈ ws, w.isFinite = true ∧ 0 ≤ w)

include hws

/-- The defined values and their weights are amounts, and so are their products. -/
theorem isAmount_of_mem_definedWithWeights {e : Float × Float} (he : e ∈ definedWithWeights cs ws) :
    Double.IsAmount e.1 ∧ Double.IsAmount e.2 ∧ Double.IsAmount (e.1 * e.2) := by
  obtain ⟨⟨c, w⟩, hp, he⟩ := List.mem_filterMap.mp he
  obtain ⟨hfinite, hnonneg⟩ := hws w (List.of_mem_zip hp).2
  have hw : Double.IsAmount w := ⟨hfinite, hnonneg⟩
  cases c with
  | unset => cases he
  | of v hv =>
    have hv' := Double.isAmount_of_mem hv
    rw [← Option.some.inj he]
    exact ⟨hv', hw, (Double.mul_of_le_one hv' (Double.value_le_one hv) hw).1⟩

theorem weightedSum_spec (cs : List Confidence) :
    Double.IsPlus (weightedSum cs ws) ∧ Double.IsNumber (weightedSum cs ws) := by
  rw [weightedSum_eq]
  exact Double.sum_spec (List.forall_mem_map.mpr fun e he =>
    (isAmount_of_mem_definedWithWeights hws he).2.2)

theorem totalWeight_spec (cs : List Confidence) :
    Double.IsPlus (totalWeight cs ws) ∧ Double.IsNumber (totalWeight cs ws) := by
  rw [totalWeight_eq]
  exact Double.sum_spec (List.forall_mem_map.mpr fun e he =>
    (isAmount_of_mem_definedWithWeights hws he).2.1)

end Sums

/-! ## When there is a mean -/

/-- The weighted mean fails exactly if both sums are infinite. -/
theorem exists_combine_weighted_iff (h : (weighted ws).validate cs.length = .ok ()) :
    (∃ c, (weighted ws).combine cs = .ok c) ↔ ¬ Overflows cs ws := by
  have hws := ((validate_eq_ok_iff.mp h).2 _ rfl).2
  obtain ⟨hsum, nsum⟩ := weightedSum_spec hws cs
  obtain ⟨htotal, ntotal⟩ := totalWeight_spec hws cs
  rw [combine_weighted_eq h]
  cases hzero : totalWeight cs ws == 0 with
  | true =>
    have hfinite := Double.isInf_eq_false_of_beq_zero hzero
    exact iff_of_true ⟨_, rfl⟩ fun ho => Bool.false_ne_true (hfinite.symm.trans ho.2)
  | false =>
    have hnumber := Double.isNumber_div_iff hsum nsum htotal ntotal hzero
    rw [Overflows, ← hnumber, ← clamp_mem_iff]
    exact ⟨fun ⟨c, hc⟩ => (Confidence.ofValue_eq_ok_iff.mp hc).1,
      fun hmem => ⟨_, Confidence.ofValue_eq_ok_iff.mpr ⟨hmem, rfl⟩⟩⟩

/-- Two weights overflow only if both are used and their sum does. -/
theorem Overflows.isInf_add {a b : Confidence} {v w : Float} (hv : v.isFinite = true)
    (hw : w.isFinite = true) (h : Overflows [a, b] [v, w]) :
    a.isDefined = true ∧ b.isDefined = true ∧ (v + w).isInf = true := by
  have htotal := h.2
  have h0 : (0 : Float).isInf = false := rfl
  have hv0 := Double.isInf_eq_false_of_isFinite (Double.isFinite_zero_add hv)
  have hw0 := Double.isInf_eq_false_of_isFinite (Double.isFinite_zero_add hw)
  cases a with
  | unset =>
    cases b with
    | unset => exact absurd (h0.symm.trans htotal) Bool.false_ne_true
    | of y hy => exact absurd (hw0.symm.trans htotal) Bool.false_ne_true
  | of x hx =>
    cases b with
    | unset => exact absurd (hv0.symm.trans htotal) Bool.false_ne_true
    | of y hy =>
      have hsum : (0 + v + w).isInf = true := htotal
      refine ⟨rfl, rfl, ?_⟩
      rcases Double.zero_add_eq hv with heq | heq
      · rwa [heq] at hsum
      · rw [heq] at hsum
        exact absurd (hw0.symm.trans hsum) Bool.false_ne_true

end Aggregation

end TraceRecovery
