import TraceRecovery.Proofs.Confidence.Children
import TraceRecovery.Proofs.Double.Quotient

/-!
# Aggregations between their children

The minimum and the maximum of some children are one of them. Means lie between them too, but they are
computed with doubles: the mean of three children with a confidence of 0.7 is less than that
(`Aggregation.average_below_its_children`). They do so up to the rounding of each step
(`Aggregation.combine_between_children`): the two sums, the products, the quotient.
-/

namespace TraceRecovery

open Double (IsAmount Rounds Close Between nearest value underflow)

namespace Aggregation

variable {a : Aggregation} {cs : List Confidence} {vws : List (Float × Float)} {x y s t v : Float}
  {lower upper : ℚ}

/-! ## Quotients -/

theorem clamp_spec (hx : IsAmount x) : IsAmount (clamp x) ∧ value (clamp x) = Min.min (value x) 1 := by
  have hneg : ¬ x < 0 :=
    (Double.not_lt_iff (Double.isNumber_of_isFinite hx.isFinite) (Double.isNumber_of_isFinite rfl)).mpr
      hx.nonneg
  have hone := Double.value_lt_iff Double.isAmount_one hx
  rw [Double.value_one] at hone
  simp only [clamp, if_neg hneg]
  split
  · rename_i hlt
    rw [Double.value_one, min_eq_right (hone.mpr hlt).le]
    exact ⟨Double.isAmount_one, rfl⟩
  · rename_i hge
    rw [min_eq_left (not_lt.mp (hone.not.mpr hge))]
    exact ⟨hx, rfl⟩

/-- A quotient of two computed numbers has the roundings of both and one more. -/
theorem close_clamp_div {m m' : ℕ} {δ X W : ℚ} (hs : IsAmount s) (ht : IsAmount t) (hpos : 0 < t)
    (hfinite : (s / t).isFinite = true) (hX : Close m δ X (value s)) (hW : Close m' 0 W (value t))
    (hδ : 0 ≤ δ) (hX0 : 0 ≤ X) (hW0 : 0 < W) (hle : X ≤ W) :
    Close (m + m' + 1) (δ / W + underflow) (X / W) (value (clamp (s / t))) := by
  have hround := Double.rounds_div hs ht hpos
  have hamount := hround.isAmount (hround.lt_of_isFinite hfinite)
  have htpos := (Double.value_pos_iff ht).mpr hpos
  have hquotient := hX.div hW hδ hX0 hs.value_nonneg hW0 htpos
  have hrounded := hquotient.trans
    (Double.close_nearest (div_nonneg hs.value_nonneg ht.value_nonneg)) (by positivity)
      Double.underflow_pos.le
  rw [(clamp_spec hamount).2, hround.value_eq hfinite]
  exact hrounded.min_one (by positivity) (div_le_one_of_le₀ hle hW0.le)
    (add_nonneg (by positivity) Double.underflow_pos.le)

/-! ## Sums of statements -/

section Statements

variable (hvws : ∀ e ∈ vws, IsStatement e)

include hvws

theorem isAmount_fst : ∀ x ∈ vws.map Prod.fst, IsAmount x :=
  List.forall_mem_map.mpr fun e he => Double.isAmount_of_mem (hvws e he).inRange

theorem isAmount_snd : ∀ x ∈ vws.map Prod.snd, IsAmount x :=
  List.forall_mem_map.mpr fun e he => (hvws e he).isAmount

theorem isFinite_sum_fst : (Double.sum (vws.map Prod.fst)).isFinite = true :=
  (Double.isFinite_sum_of_le_one (isAmount_fst hvws)
    (List.forall_mem_map.mpr fun e he => Double.value_le_one (hvws e he).inRange)).1

end Statements

/-! ## Averages -/

section Average

variable (hvws : ∀ e ∈ vws, IsStatement e) (hpos : 0 < vws.length) (hk : vws.length < 2 ^ 64)

include hvws hpos hk

/-- The average does not overflow. -/
theorem average_spec : IsAmount (Double.sum (vws.map Prod.fst)) ∧
    IsAmount (Float.ofNat vws.length) ∧ 0 < Float.ofNat vws.length ∧
    (Double.sum (vws.map Prod.fst) / Float.ofNat vws.length).isFinite = true := by
  obtain ⟨hcount, hvalue, hone⟩ := Double.ofNat_spec hpos hk
  have hcount0 : 0 < Float.ofNat vws.length :=
    (Double.value_pos_iff hcount).mp (hvalue ▸ zero_lt_one.trans_le hone)
  have hsum := Double.isAmount_sum (isAmount_fst hvws) (isFinite_sum_fst hvws)
  refine ⟨hsum, hcount, hcount0, (Double.rounds_div hsum hcount hcount0).isFinite_iff.mpr ?_⟩
  calc nearest (value (Double.sum (vws.map Prod.fst)) / value (Float.ofNat vws.length))
      ≤ nearest (value (Double.sum (vws.map Prod.fst))) :=
        Double.nearest_mono (div_nonneg hsum.value_nonneg hcount.value_nonneg)
          (div_le_self hsum.value_nonneg (hvalue ▸ hone))
    _ = value (Double.sum (vws.map Prod.fst)) := hsum.nearest_value
    _ < 2 ^ 1024 := hsum.value_lt

/-- The computed average is that of the values up to the roundings of the sum, of the count and of the
quotient. -/
theorem close_average :
    Close (vws.length + 1) underflow ((vws.map (value ∘ Prod.fst)).sum / vws.length)
      (value (clamp (Double.sum (vws.map Prod.fst) / Float.ofNat vws.length))) := by
  obtain ⟨hsum, hcount, hcount0, hfinite⟩ := average_spec hvws hpos hk
  have hS := Double.close_sum (isAmount_fst hvws) (isFinite_sum_fst hvws)
  have hW : Close 1 0 vws.length (value (Float.ofNat vws.length)) :=
    (Double.ofNat_spec hpos hk).2.1 ▸ Double.close_nearest_natCast vws.length
  rw [List.map_map, List.length_map] at hS
  have hlower : 0 ≤ (vws.map (value ∘ Prod.fst)).sum := List.sum_nonneg
    (List.forall_mem_map.mpr fun e he => (Double.isAmount_of_mem (hvws e he).inRange).value_nonneg)
  have hupper : (vws.map (value ∘ Prod.fst)).sum ≤ vws.length := by
    have hle := List.sum_le_card_nsmul (vws.map (value ∘ Prod.fst)) 1
      (List.forall_mem_map.mpr fun e he => Double.value_le_one (hvws e he).inRange)
    simpa using hle
  have hclose := close_clamp_div hsum hcount hcount0 hfinite hS hW le_rfl hlower
    (by exact_mod_cast hpos) hupper
  have hroundings : vws.length - 1 + 1 + 1 = vws.length + 1 := by omega
  rwa [hroundings, zero_div, zero_add] at hclose

end Average

/-- The mean of some numbers lies between them. -/
theorem average_mem (hpos : 0 < vws.length)
    (hbounds : ∀ e ∈ vws, lower ≤ value e.1 ∧ value e.1 ≤ upper) :
    lower ≤ (vws.map (value ∘ Prod.fst)).sum / vws.length ∧
      (vws.map (value ∘ Prod.fst)).sum / vws.length ≤ upper := by
  have hcount : (0 : ℚ) < vws.length := by exact_mod_cast hpos
  have hle := List.card_nsmul_le_sum (vws.map (value ∘ Prod.fst)) lower
    (List.forall_mem_map.mpr fun e he => (hbounds e he).1)
  have hge := List.sum_le_card_nsmul (vws.map (value ∘ Prod.fst)) upper
    (List.forall_mem_map.mpr fun e he => (hbounds e he).2)
  rw [List.length_map, nsmul_eq_mul] at hle hge
  exact ⟨by rwa [le_div_iff₀' hcount], by rwa [div_le_iff₀' hcount]⟩

/-! ## Weighted means -/

/-- The total weight of some statements, without rounding. -/
def exactTotal (vws : List (Float × Float)) : ℚ := (vws.map (value ∘ Prod.snd)).sum

theorem exactTotal_pos (hvws : ∀ e ∈ vws, IsStatement e) (hpos : 0 < vws.length) :
    0 < exactTotal vws :=
  List.sum_pos _ (List.forall_mem_map.mpr fun e he =>
    (Double.value_pos_iff (hvws e he).isAmount).mpr (hvws e he).pos)
    (by simpa [List.length_pos_iff] using hpos)

section Weighted

variable (hvws : ∀ e ∈ vws, IsStatement e)

include hvws

/-- A product does not exceed its weight, whatever is rounded. -/
theorem product_spec : ∀ e ∈ vws, IsAmount (e.1 * e.2) ∧ value (e.1 * e.2) ≤ value e.2 ∧
    Close 1 underflow (value e.1 * value e.2) (value (e.1 * e.2)) := by
  intro e he
  have hv := Double.isAmount_of_mem (hvws e he).inRange
  have hw := (hvws e he).isAmount
  obtain ⟨hamount, hle⟩ := Double.mul_of_le_one hv (Double.value_le_one (hvws e he).inRange) hw
  refine ⟨hamount, hle, ?_⟩
  rw [(Double.rounds_mul hv hw).value_eq hamount.isFinite]
  exact Double.close_nearest (mul_nonneg hv.value_nonneg hw.value_nonneg)

/-- If the total weight does not overflow, nothing does. -/
theorem weighted_spec (hpos : 0 < vws.length)
    (hfinite : (Double.sum (vws.map Prod.snd)).isFinite = true) :
    IsAmount (Double.sum (vws.map fun e => e.1 * e.2)) ∧ IsAmount (Double.sum (vws.map Prod.snd)) ∧
      0 < Double.sum (vws.map Prod.snd) ∧
      (Double.sum (vws.map fun e => e.1 * e.2) / Double.sum (vws.map Prod.snd)).isFinite = true := by
  have hproduct := product_spec hvws
  obtain ⟨hfinite', hle⟩ := Double.value_sum_le (fun e he => (hproduct e he).1)
    (fun e he => (hvws e he).isAmount) (fun e he => (hproduct e he).2.1) hfinite
  have hs := Double.isAmount_sum (List.forall_mem_map.mpr fun e he => (hproduct e he).1) hfinite'
  have ht := Double.isAmount_sum (isAmount_snd hvws) hfinite
  have ht0 : 0 < Double.sum (vws.map Prod.snd) := by
    obtain ⟨e, he⟩ := List.exists_mem_of_length_pos hpos
    exact Double.pos_sum (isAmount_snd hvws) (List.mem_map_of_mem he) (hvws e he).pos
  refine ⟨hs, ht, ht0, (Double.rounds_div hs ht ht0).isFinite_iff.mpr ?_⟩
  calc nearest (value (Double.sum (vws.map fun e => e.1 * e.2)) /
        value (Double.sum (vws.map Prod.snd))) ≤ nearest (value 1) := by
        rw [Double.value_one]
        exact Double.nearest_mono (div_nonneg hs.value_nonneg ht.value_nonneg)
          (div_le_one_of_le₀ hle ht.value_nonneg)
    _ = value 1 := Double.isAmount_one.nearest_value
    _ < 2 ^ 1024 := Double.isAmount_one.value_lt

/-- The computed mean is that of the values up to the roundings of the two sums, of the products and
of the quotient. -/
theorem close_weighted (hpos : 0 < vws.length)
    (hfinite : (Double.sum (vws.map Prod.snd)).isFinite = true) :
    Close (2 * vws.length)
      (underflow * (1 + vws.length / exactTotal vws))
      ((vws.map fun e => value e.1 * value e.2).sum / exactTotal vws)
      (value (clamp (Double.sum (vws.map fun e => e.1 * e.2) / Double.sum (vws.map Prod.snd)))) := by
  obtain ⟨hs, ht, ht0, hquotient⟩ := weighted_spec hvws hpos hfinite
  have hproduct := product_spec hvws
  have hslack : 0 ≤ vws.length * underflow := mul_nonneg (Nat.cast_nonneg _) Double.underflow_pos.le
  have hsum := Double.close_sum (List.forall_mem_map.mpr fun e he => (hproduct e he).1) hs.isFinite
  rw [List.map_map, List.length_map] at hsum
  have hX := (Close.listSum fun e he => (hproduct e he).2.2).trans hsum hslack le_rfl
  have hW := Double.close_sum (isAmount_snd hvws) hfinite
  rw [List.map_map, List.length_map, ← exactTotal] at hW
  have hX0 : 0 ≤ (vws.map fun e => value e.1 * value e.2).sum :=
    List.sum_nonneg (List.forall_mem_map.mpr fun e he => mul_nonneg
      (Double.isAmount_of_mem (hvws e he).inRange).value_nonneg (hvws e he).isAmount.value_nonneg)
  have hXW : (vws.map fun e => value e.1 * value e.2).sum ≤ exactTotal vws :=
    List.sum_le_sum fun e he => mul_le_of_le_one_left (hvws e he).isAmount.value_nonneg
      (Double.value_le_one (hvws e he).inRange)
  have hclose := close_clamp_div hs ht ht0 hquotient hX hW (by rwa [add_zero]) hX0
    (exactTotal_pos hvws hpos) hXW
  have hroundings : 1 + (vws.length - 1) + (vws.length - 1) + 1 = 2 * vws.length := by omega
  have herror : (vws.length * underflow + 0) / exactTotal vws + underflow =
      underflow * (1 + vws.length / exactTotal vws) := by ring
  rwa [hroundings, herror] at hclose

/-- The weighted mean of some numbers lies between them. -/
theorem weighted_mem (hpos : 0 < vws.length)
    (hbounds : ∀ e ∈ vws, lower ≤ value e.1 ∧ value e.1 ≤ upper) :
    lower ≤ (vws.map fun e => value e.1 * value e.2).sum / exactTotal vws ∧
      (vws.map fun e => value e.1 * value e.2).sum / exactTotal vws ≤ upper := by
  have htotal := exactTotal_pos hvws hpos
  rw [le_div_iff₀ htotal, div_le_iff₀ htotal, exactTotal, ← List.sum_map_mul_left,
    ← List.sum_map_mul_left]
  refine ⟨List.sum_le_sum fun e he => ?_, List.sum_le_sum fun e he => ?_⟩
  · exact mul_le_mul_of_nonneg_right (hbounds e he).1 (hvws e he).isAmount.value_nonneg
  · exact mul_le_mul_of_nonneg_right (hbounds e he).2 (hvws e he).isAmount.value_nonneg

end Weighted

/-! ## Few children -/

section Few

variable {k : ℕ} {S : ℚ} (hk : k = 1 ∨ k = 2) (hx : IsAmount x)

include hk hx

theorem nearest_mul_value : nearest (k * value x) = k * value x := by
  rcases hk with rfl | rfl
  · rw [Nat.cast_one, one_mul, hx.nearest_value]
  · exact hx.nearest_two_mul_value

theorem le_rounded_mean (h : k * value x ≤ S) : value x ≤ nearest (nearest S / k) := by
  have hcount : (0 : ℚ) < k := by rcases hk with rfl | rfl <;> norm_num
  have hsum := Double.nearest_mono (mul_nonneg hcount.le hx.value_nonneg) h
  rw [nearest_mul_value hk hx, ← le_div_iff₀' hcount] at hsum
  exact hx.nearest_value ▸ Double.nearest_mono hx.value_nonneg hsum

theorem rounded_mean_le (hS : 0 ≤ S) (h : S ≤ k * value x) : nearest (nearest S / k) ≤ value x := by
  have hcount : (0 : ℚ) < k := by rcases hk with rfl | rfl <;> norm_num
  have hsum := Double.nearest_mono hS h
  rw [nearest_mul_value hk hx, ← div_le_iff₀' hcount] at hsum
  exact hx.nearest_value ▸ Double.nearest_mono
    (div_nonneg (Double.nearest_nonneg hS) hcount.le) hsum

end Few

/-- The sum of one or two values is rounded at most once, and lies between multiples of two of them. -/
theorem sum_of_few (hvws : ∀ e ∈ vws, IsStatement e)
    (hk : vws.length = 1 ∨ vws.length = 2) :
    value (Double.sum (vws.map Prod.fst)) = nearest (vws.map (value ∘ Prod.fst)).sum ∧
      (∃ e ∈ vws, vws.length * value e.1 ≤ (vws.map (value ∘ Prod.fst)).sum) ∧
      ∃ e ∈ vws, (vws.map (value ∘ Prod.fst)).sum ≤ vws.length * value e.1 := by
  have hfinite := isFinite_sum_fst hvws
  rcases hk with hk | hk
  · obtain ⟨e, rfl⟩ := List.length_eq_one_iff.mp hk
    have he := Double.isAmount_of_mem (hvws e List.mem_cons_self).inRange
    refine ⟨?_, ⟨e, List.mem_cons_self, by simp⟩, ⟨e, List.mem_cons_self, by simp⟩⟩
    simpa using (Double.value_sum_singleton he).trans he.nearest_value.symm
  · obtain ⟨e, f, rfl⟩ := List.length_eq_two.mp hk
    have he := Double.isAmount_of_mem (hvws e List.mem_cons_self).inRange
    have hf := Double.isAmount_of_mem (hvws f (by simp)).inRange
    have hinit : ∀ x ∈ [e.1], IsAmount x := List.forall_mem_singleton.mpr he
    have hround := Double.rounds_sum_concat hinit hf (Double.isFinite_zero_add he.isFinite)
    have hvalue := hround.value_eq hfinite
    rw [Double.value_sum_singleton he] at hvalue
    have hsum : ([e, f].map (value ∘ Prod.fst)).sum = value e.1 + value f.1 := by simp
    have hcount : (([e, f].length : ℕ) : ℚ) = 2 := by simp
    rw [hsum, hcount]
    refine ⟨hvalue, ?_, ?_⟩
    · rcases le_total (value e.1) (value f.1) with hle | hle
      · exact ⟨e, List.mem_cons_self, by linarith⟩
      · exact ⟨f, by simp, by linarith⟩
    · rcases le_total (value e.1) (value f.1) with hle | hle
      · exact ⟨f, by simp, by linarith⟩
      · exact ⟨e, List.mem_cons_self, by linarith⟩

theorem average_of_few (hvws : ∀ e ∈ vws, IsStatement e) (hpos : 0 < vws.length)
    (hfew : vws.length ≤ 2) (hbounds : ∀ e ∈ vws, lower ≤ value e.1 ∧ value e.1 ≤ upper) :
    lower ≤ value (clamp (Double.sum (vws.map Prod.fst) / Float.ofNat vws.length)) ∧
      value (clamp (Double.sum (vws.map Prod.fst) / Float.ofNat vws.length)) ≤ upper := by
  have hk : vws.length = 1 ∨ vws.length = 2 := by omega
  obtain ⟨hsum, ⟨e, he, hle⟩, f, hf, hge⟩ := sum_of_few hvws hk
  obtain ⟨hs, hcount, hcount0, hfinite⟩ := average_spec hvws hpos (by omega)
  have hround := Double.rounds_div hs hcount hcount0
  have hvalue : value (Float.ofNat vws.length) = vws.length := by
    have hone := nearest_mul_value hk Double.isAmount_one
    rw [Double.value_one, mul_one] at hone
    rw [(Double.ofNat_spec hpos (by omega)).2.1, hone]
  have hS : 0 ≤ (vws.map (value ∘ Prod.fst)).sum := List.sum_nonneg
    (List.forall_mem_map.mpr fun e he => (Double.isAmount_of_mem (hvws e he).inRange).value_nonneg)
  have hlower := le_rounded_mean hk (Double.isAmount_of_mem (hvws e he).inRange) hle
  have hupper := rounded_mean_le hk (Double.isAmount_of_mem (hvws f hf).inRange) hS hge
  have hamount := hround.isAmount (hround.lt_of_isFinite hfinite)
  rw [(clamp_spec hamount).2, hround.value_eq hfinite, hsum, hvalue]
  refine ⟨(hbounds e he).1.trans (le_min hlower (Double.value_le_one (hvws e he).inRange)), ?_⟩
  exact (min_le_left _ _).trans (hupper.trans (hbounds f hf).2)

/-! ## All aggregations -/

theorem eq_of_ofValue {q : Float} {hv : 0 ≤ v ∧ v ≤ 1}
    (h : Confidence.ofValue q = .ok (.of v hv)) : q = v := by
  obtain ⟨hq, heq⟩ := Confidence.ofValue_eq_ok_iff.mp h
  cases heq
  rfl

theorem mem_of_confidence {beats : Float → Float → Bool} {vs : List Float} {hv : 0 ≤ v ∧ v ≤ 1}
    (h : confidence (extreme beats vs) = .ok (.of v hv)) : v ∈ vs := by
  cases hm : extreme beats vs with
  | none =>
    rw [hm] at h
    cases h
  | some m =>
    rw [hm] at h
    exact eq_of_ofValue h ▸ mem_of_extreme hm

theorem exists_of_any_value? {x : Except TraceError Confidence} {p : Float → Bool}
    (h : x.toOption.any (fun c => c.value?.any p) = true) :
    ∃ v hv, x = .ok (.of v hv) ∧ p v = true := by
  obtain ⟨c, hc, hp⟩ := Fallible.exists_of_any_toOption h
  cases c with
  | unset => cases hp
  | of v hv => exact ⟨v, hv, hc, hp⟩

/-- A confidence that an aggregation makes of some children lies between those of the children with an
influence. The minimum and the maximum do so exactly, and so does the average of at most two children.
Averages of `k` children do so up to `k + 1` roundings, and weighted means up to `2 * k` roundings
unless their total weight overflows. -/
theorem combine_between_children (h : a.validate cs.length = .ok ()) {hv : 0 ≤ v ∧ v ≤ 1}
    (hcombine : a.combine cs = .ok (.of v hv))
    (hbounds : ∀ e ∈ statements (a.children cs), lower ≤ value e.1 ∧ value e.1 ≤ upper) :
    let k := (statements (a.children cs)).length
    let total := exactTotal (statements (a.children cs))
    (a = min ∨ a = max ∨ a = average ∧ k ≤ 2 → lower ≤ value v ∧ value v ≤ upper) ∧
    (a = average → k < 2 ^ 64 → Between (k + 1) underflow lower upper (value v)) ∧
    ∀ ws, a = weighted ws → (totalWeight cs ws).isFinite = true →
      Between (2 * k) (underflow * (1 + k / total)) lower upper (value v) := by
  have haccepts := accepts_children h
  have hstatements : ∀ e ∈ statements (a.children cs), IsStatement e :=
    fun e he => isStatement_of_mem haccepts he
  rw [← combineChildren_children h] at hcombine
  have hne : statements (a.children cs) ≠ [] := fun hnil => by
    have hunset := (eq_unset_iff haccepts hcombine).mpr hnil
    cases hunset
  have hpos : 0 < (statements (a.children cs)).length := List.length_pos_iff.mpr hne
  rw [combineChildren_eq haccepts] at hcombine
  unfold combineStatements at hcombine
  rw [if_neg (by rwa [List.isEmpty_iff])] at hcombine
  have hextreme : v ∈ (statements (a.children cs)).map Prod.fst →
      lower ≤ value v ∧ value v ≤ upper := fun hmem => by
    obtain ⟨e, he, rfl⟩ := List.mem_map.mp hmem
    exact hbounds e he
  dsimp only
  refine ⟨?_, ?_, ?_⟩
  · rintro (rfl | rfl | ⟨rfl, hfew⟩)
    · exact hextreme (mem_of_confidence hcombine)
    · exact hextreme (mem_of_confidence hcombine)
    · exact eq_of_ofValue hcombine ▸ average_of_few hstatements hpos hfew hbounds
  · rintro rfl hk
    obtain ⟨hlower, hupper⟩ := average_mem hpos hbounds
    exact eq_of_ofValue hcombine ▸ (close_average hstatements hpos hk).between hlower hupper
  · rintro ws rfl hfinite
    have hlength := length_weightsFor h
    have htotal := (sums_eq haccepts).2
    rw [children, List.map_fst_zip hlength.ge, List.map_snd_zip hlength.le, ← children] at htotal
    obtain ⟨hlower, hupper⟩ := weighted_mem hstatements hpos hbounds
    exact eq_of_ofValue hcombine ▸
      (close_weighted hstatements hpos (htotal ▸ hfinite)).between hlower hupper

/-- Three children with an influence lie on either side of their weighted mean; a fourth one beyond
them has none, as its weight is zero. All four count in their average, and an average of two is
exact. -/
theorem combine_between_children_of_three :
    let cs : List Confidence :=
      [.of 0.25 (by decide), .of 1 (by decide), .of 0.5 (by decide), .of 0.75 (by decide)]
    (∃ v hv, (weighted [0.7, 0, 0.3, 0.5]).combine cs = .ok (.of v hv) ∧ 0.25 < v ∧ v < 0.75 ∧
      Between 6 (underflow * (1 + 3 / (value 0.7 + value 0.3 + value 0.5)))
        (value 0.25) (value 0.75) (value v)) ∧
      (∃ v hv, average.combine cs = .ok (.of v hv) ∧
        Between 5 underflow (value 0.25) (value 1) (value v)) ∧
      ∃ v hv, average.combine (cs.drop 2) = .ok (.of v hv) ∧
        value 0.5 ≤ value v ∧ value v ≤ value 0.75 := by
  intro cs
  have hle : ∀ {x y : Float}, 0 ≤ x ∧ x ≤ 1 → 0 ≤ y ∧ y ≤ 1 → x ≤ y → value x ≤ value y :=
    fun hx hy => (Double.value_le_iff (Double.isAmount_of_mem hx) (Double.isAmount_of_mem hy)).mpr
  have hquarter : value 0.25 ≤ value 0.5 := hle (by decide) (by decide) (by decide)
  have hhalf : value 0.5 ≤ value 0.75 := hle (by decide) (by decide) (by decide)
  have hmost : value 0.75 ≤ value 1 := hle (by decide) (by decide) (by decide)
  refine ⟨?_, ?_, ?_⟩
  · obtain ⟨v, hv, hcombine, hstrict⟩ := exists_of_any_value?
      (x := (weighted [0.7, 0, 0.3, 0.5]).combine cs)
      (p := fun v => decide (0.25 < v) && decide (v < 0.75)) (by decide +kernel)
    have hstatements : statements ((weighted [0.7, 0, 0.3, 0.5]).children cs) =
        [(0.25, 0.7), (0.5, 0.3), (0.75, 0.5)] := by rfl
    have htotal : exactTotal [(0.25, 0.7), (0.5, 0.3), (0.75, 0.5)] =
        value 0.7 + value 0.3 + value 0.5 := by simp [exactTotal, add_assoc]
    have hbounds : ∀ e ∈ statements ((weighted [0.7, 0, 0.3, 0.5]).children cs),
        value 0.25 ≤ value e.1 ∧ value e.1 ≤ value 0.75 := by
      simp [hstatements, hquarter, hhalf, hquarter.trans hhalf]
    have hbetween := (combine_between_children (by rfl) hcombine hbounds).2.2 _ rfl
      (by decide +kernel)
    rw [hstatements, htotal] at hbetween
    rw [Bool.and_eq_true, decide_eq_true_eq, decide_eq_true_eq] at hstrict
    exact ⟨v, hv, hcombine, hstrict.1, hstrict.2, hbetween⟩
  · obtain ⟨v, hv, hcombine, -⟩ := exists_of_any_value? (x := average.combine cs)
      (p := fun _ => true) (by decide +kernel)
    have hstatements : statements (average.children cs) =
        [(0.25, 1), (1, 1), (0.5, 1), (0.75, 1)] := by rfl
    have hbounds : ∀ e ∈ statements (average.children cs),
        value 0.25 ≤ value e.1 ∧ value e.1 ≤ value 1 := by
      simp [hstatements, hquarter, hmost, hquarter.trans hhalf, hhalf.trans hmost,
        (hquarter.trans hhalf).trans hmost]
    exact ⟨v, hv, hcombine,
      (combine_between_children (by rfl) hcombine hbounds).2.1 rfl (by rw [hstatements]; decide)⟩
  · obtain ⟨v, hv, hcombine, -⟩ := exists_of_any_value? (x := average.combine (cs.drop 2))
      (p := fun _ => true) (by decide +kernel)
    have hstatements : statements (average.children (cs.drop 2)) = [(0.5, 1), (0.75, 1)] := by rfl
    have hbounds : ∀ e ∈ statements (average.children (cs.drop 2)),
        value 0.5 ≤ value e.1 ∧ value e.1 ≤ value 0.75 := by
      simp [hstatements, hhalf]
    exact ⟨v, hv, hcombine, (combine_between_children (by rfl) hcombine hbounds).1
      (.inr (.inr ⟨rfl, by rw [hstatements]; decide⟩))⟩

/-- The average of three children with the same confidence is less than that. -/
theorem average_below_its_children :
    average.validate 3 = .ok () ∧ ∃ v hv,
      average.combine (List.replicate 3 (.of 0.7 (by decide))) = .ok (.of v hv) ∧ v < 0.7 := by
  obtain ⟨v, hv, hcombine, hlt⟩ := exists_of_any_value?
    (x := average.combine (List.replicate 3 (.of 0.7 (by decide)))) (p := fun v => v < 0.7)
    (by decide +kernel)
  exact ⟨by rfl, v, hv, hcombine, of_decide_eq_true hlt⟩

end Aggregation

end TraceRecovery
