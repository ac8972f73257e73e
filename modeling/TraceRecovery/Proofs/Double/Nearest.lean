import Mathlib

/-!
# Nearest doubles

The numbers from zero on that a double can have are the multiples of a power of two that has at most
53 bits less than they have, and is never smaller than the least double (`Double.gridExponent`).
Between two of them a number is rounded to the nearer one, and of two that are equally near to the
even one (`Double.nearest`). There is no greatest number here: what overflows is nearest to a number
of at least `2 ^ 1024`.

* `Double.nearest_mono`, `Double.nearest_of_double`: rounding is monotone and leaves doubles alone;
* `Double.abs_nearest_sub_le`: the error is at most half a unit in the last place;
* `Double.abs_nearest_sub_le_of_multiple`: among these numbers only those that are no multiples of the
  least double have an error that is not small in relation to them.
-/

namespace TraceRecovery

namespace Double

variable {x y : ℚ} {k e : ℤ}

/-! ## Whole numbers -/

/-- The nearest whole number; halfway between two of them the even one. -/
def roundEven (x : ℚ) : ℤ :=
  if Int.fract x < 1 / 2 then ⌊x⌋
  else if Int.fract x = 1 / 2 then ⌊x⌋ + ⌊x⌋ % 2
  else ⌊x⌋ + 1

theorem floor_le_roundEven (x : ℚ) : ⌊x⌋ ≤ roundEven x ∧ roundEven x ≤ ⌊x⌋ + 1 := by
  unfold roundEven
  split
  · omega
  · split <;> omega

theorem roundEven_mono (h : x ≤ y) : roundEven x ≤ roundEven y := by
  rcases (Int.floor_mono h).lt_or_eq with hlt | heq
  · have hx := (floor_le_roundEven x).2
    have hy := (floor_le_roundEven y).1
    omega
  · have hfract : Int.fract x ≤ Int.fract y := by
      rw [Int.fract, Int.fract, heq]
      exact sub_le_sub_right h _
    unfold roundEven
    rw [heq]
    split_ifs <;> first | omega | (exfalso; linarith) | (exfalso; grind)

theorem roundEven_intCast (k : ℤ) : roundEven k = k := by
  simp [roundEven]

theorem roundEven_of_lt (h : k ≤ x) (h' : x < k + 1 / 2) : roundEven x = k := by
  have hfloor : ⌊x⌋ = k := Int.floor_eq_iff.mpr ⟨h, by linarith⟩
  have hfract : Int.fract x < 1 / 2 := by
    rw [Int.fract, hfloor]
    linarith
  rw [roundEven, if_pos hfract, hfloor]

theorem roundEven_of_eq (h : x = k + 1 / 2) : roundEven x = k + k % 2 := by
  have hfloor : ⌊x⌋ = k := Int.floor_eq_iff.mpr ⟨by linarith, by linarith⟩
  have hfract : Int.fract x = 1 / 2 := by
    rw [Int.fract, hfloor]
    linarith
  rw [roundEven, if_neg hfract.not_lt, if_pos hfract, hfloor]

theorem roundEven_of_gt (h : k + 1 / 2 < x) (h' : x < k + 1) : roundEven x = k + 1 := by
  have hfloor : ⌊x⌋ = k := Int.floor_eq_iff.mpr ⟨by linarith, h'⟩
  have hfract : 1 / 2 < Int.fract x := by
    rw [Int.fract, hfloor]
    linarith
  rw [roundEven, if_neg hfract.not_gt, if_neg hfract.ne', hfloor]

theorem abs_roundEven_sub_le (x : ℚ) : |(roundEven x : ℚ) - x| ≤ 1 / 2 := by
  have hx := Int.floor_add_fract x
  have hmod : ((⌊x⌋ % 2 : ℤ) : ℚ) = 0 ∨ ((⌊x⌋ % 2 : ℤ) : ℚ) = 1 := by
    rcases Int.emod_two_eq_zero_or_one ⌊x⌋ with h | h <;> simp [h]
  have hnonneg := Int.fract_nonneg x
  have hlt := Int.fract_lt_one x
  unfold roundEven
  rw [abs_le]
  split
  · constructor <;> linarith
  · split
    · push_cast
      rcases hmod with h | h <;> rw [h] <;> constructor <;> linarith
    · push_cast
      constructor <;> linarith

/-! ## Doubles -/

/-- The exponent of the last place of the doubles around a positive number. -/
def gridExponent (x : ℚ) : ℤ := max (Int.log 2 x - 52) (-1074)

/-- The nearest number that a double can have, overflow aside. -/
def nearest (x : ℚ) : ℚ := roundEven (x / 2 ^ gridExponent x) * 2 ^ gridExponent x

theorem two_zpow_pos (e : ℤ) : (0 : ℚ) < 2 ^ e := zpow_pos two_pos e

theorem zpow_log_le (h : 0 < x) : (2 : ℚ) ^ Int.log 2 x ≤ x := by
  exact_mod_cast Int.zpow_log_le_self (b := 2) Nat.one_lt_two h

theorem lt_zpow_log (x : ℚ) : x < (2 : ℚ) ^ (Int.log 2 x + 1) := by
  exact_mod_cast Int.lt_zpow_succ_log_self (b := 2) Nat.one_lt_two x

theorem log_eq_of_mem (h : (2 : ℚ) ^ e ≤ x) (h' : x < 2 ^ (e + 1)) : Int.log 2 x = e := by
  have hle := (Int.zpow_le_iff_le_log (b := 2) Nat.one_lt_two ((two_zpow_pos e).trans_le h)).mp
    (by exact_mod_cast h)
  have hlt := (Int.lt_zpow_iff_log_lt (b := 2) Nat.one_lt_two ((two_zpow_pos e).trans_le h)).mp
    (by exact_mod_cast h')
  omega

/-- The logarithm of a number whose bits are those of `m` and further ones below them. -/
theorem log_eq_log2_add {m : ℕ} (hm : 0 < m) (h : m * 2 ^ e ≤ x) (h' : x < (m + 1) * 2 ^ e) :
    Int.log 2 x = m.log2 + e := by
  obtain ⟨hle, hlt⟩ := (Nat.log2_eq_iff hm.ne').mp rfl
  have hpos := two_zpow_pos e
  have hlow : (2 : ℚ) ^ m.log2 ≤ m := by exact_mod_cast hle
  have hhigh : (m + 1 : ℚ) ≤ 2 ^ (m.log2 + 1) := by exact_mod_cast hlt
  refine log_eq_of_mem ?_ ?_
  · rw [zpow_add₀ two_ne_zero, zpow_natCast]
    exact (mul_le_mul_of_nonneg_right hlow hpos.le).trans h
  · rw [add_right_comm, zpow_add₀ two_ne_zero, ← Nat.cast_succ, zpow_natCast]
    exact h'.trans_le (mul_le_mul_of_nonneg_right hhigh hpos.le)

theorem gridExponent_mono (hx : 0 < x) (h : x ≤ y) : gridExponent x ≤ gridExponent y :=
  max_le_max (sub_le_sub_right (Int.log_mono_right hx h) _) le_rfl

theorem two_pow_toNat_mul {g : ℤ} (h : g ≤ e) : (2 : ℚ) ^ (e - g).toNat * 2 ^ g = 2 ^ e := by
  rw [← zpow_natCast, Int.toNat_of_nonneg (sub_nonneg.mpr h), ← zpow_add₀ two_ne_zero,
    sub_add_cancel]

/-- A multiple of a power of two is one of each smaller power of two. -/
theorem div_eq_intCast {g : ℤ} (h : g ≤ e) (k : ℤ) :
    (k * 2 ^ e : ℚ) / 2 ^ g = ((k * 2 ^ (e - g).toNat : ℤ) : ℚ) := by
  rw [div_eq_iff (two_zpow_pos g).ne', ← two_pow_toNat_mul h]
  push_cast
  ring

/-- Rounding does not get past a number that a double can have. -/
theorem nearest_le (he : gridExponent x ≤ e) (h : x ≤ k * 2 ^ e) : nearest x ≤ k * 2 ^ e := by
  have hpos := two_zpow_pos (gridExponent x)
  have hround := roundEven_mono ((div_le_div_iff_of_pos_right hpos).mpr h)
  rw [div_eq_intCast he, roundEven_intCast] at hround
  rw [nearest, ← le_div_iff₀ hpos, div_eq_intCast he]
  exact_mod_cast hround

theorem le_nearest (he : gridExponent x ≤ e) (h : k * 2 ^ e ≤ x) : k * 2 ^ e ≤ nearest x := by
  have hpos := two_zpow_pos (gridExponent x)
  have hround := roundEven_mono ((div_le_div_iff_of_pos_right hpos).mpr h)
  rw [div_eq_intCast he, roundEven_intCast] at hround
  rw [nearest, ← div_le_iff₀ hpos, div_eq_intCast he]
  exact_mod_cast hround

theorem nearest_eq_of_multiple (he : gridExponent x ≤ e) (h : x = k * 2 ^ e) : nearest x = x := by
  conv_rhs => rw [h]
  exact le_antisymm (nearest_le he h.le) (le_nearest he h.ge)

@[simp] theorem nearest_zero : nearest 0 = 0 := by
  have hzero : roundEven 0 = 0 := by exact_mod_cast roundEven_intCast 0
  rw [nearest, zero_div, hzero, Int.cast_zero, zero_mul]

theorem nearest_nonneg (h : 0 ≤ x) : 0 ≤ nearest x := by
  simpa using le_nearest (k := 0) le_rfl (by simpa using h)

/-- Rounding is monotone. -/
theorem nearest_mono (hx : 0 ≤ x) (h : x ≤ y) : nearest x ≤ nearest y := by
  rcases hx.eq_or_lt with rfl | hpos
  · rw [nearest_zero]
    exact nearest_nonneg h
  rcases (gridExponent_mono hpos h).eq_or_lt with heq | hlt
  · have hgrid := two_zpow_pos (gridExponent y)
    rw [nearest, nearest, heq]
    refine mul_le_mul_of_nonneg_right ?_ hgrid.le
    exact_mod_cast roundEven_mono ((div_le_div_iff_of_pos_right hgrid).mpr h)
  · -- The greater number has more bits, so a power of two lies between the two.
    have hlog : Int.log 2 x < Int.log 2 y ∧ gridExponent x ≤ Int.log 2 y ∧
        gridExponent y ≤ Int.log 2 y := by
      unfold gridExponent at hlt ⊢
      omega
    have hbetween : x ≤ (1 : ℤ) * 2 ^ Int.log 2 y := by
      rw [Int.cast_one, one_mul]
      exact (lt_zpow_log x).le.trans (zpow_le_zpow_right₀ one_le_two hlog.1)
    refine (nearest_le hlog.2.1 hbetween).trans (le_nearest hlog.2.2 ?_)
    rw [Int.cast_one, one_mul]
    exact zpow_log_le (hpos.trans_le h)

/-- Doubles are left alone. -/
theorem nearest_of_double {m : ℕ} (hm : m < 2 ^ 53) (he : -1074 ≤ e) :
    nearest (m * 2 ^ e) = m * 2 ^ e := by
  rcases Nat.eq_zero_or_pos m with rfl | hpos
  · simp
  · refine nearest_eq_of_multiple (k := m) (e := e) ?_ (by simp)
    have hlog : m.log2 < 53 := (Nat.log2_lt hpos.ne').mpr hm
    have hpow := two_zpow_pos e
    rw [gridExponent, log_eq_log2_add hpos le_rfl (by linarith)]
    omega

/-! ## Errors -/

/-- The relative error of rounding, unless there is an underflow. -/
def roundoff : ℚ := 2 ^ (-53 : ℤ)

/-- The absolute error of rounding in case of an underflow: half of the least double. -/
def underflow : ℚ := 2 ^ (-1075 : ℤ)

theorem roundoff_pos : 0 < roundoff := two_zpow_pos _

theorem underflow_pos : 0 < underflow := two_zpow_pos _

theorem abs_nearest_sub_le_half (x : ℚ) : |nearest x - x| ≤ 2 ^ gridExponent x / 2 := by
  have hpos := two_zpow_pos (gridExponent x)
  have hscaled : nearest x - x =
      (roundEven (x / 2 ^ gridExponent x) - x / 2 ^ gridExponent x) * 2 ^ gridExponent x := by
    rw [sub_mul, div_mul_cancel₀ x hpos.ne', nearest]
  rw [hscaled, abs_mul, abs_of_pos hpos]
  calc _ ≤ 1 / 2 * (2 : ℚ) ^ gridExponent x :=
        mul_le_mul_of_nonneg_right (abs_roundEven_sub_le _) hpos.le
    _ = 2 ^ gridExponent x / 2 := by ring

/-- Unless a number is too small, its last place is small in relation to it. -/
theorem abs_nearest_sub_le_of_large (hx : 0 < x) (h : -1022 ≤ Int.log 2 x) :
    |nearest x - x| ≤ roundoff * x := by
  have hgrid : gridExponent x = Int.log 2 x - 52 := by
    rw [gridExponent]
    omega
  have hpow : (2 : ℚ) ^ (Int.log 2 x - 52) / 2 = roundoff * 2 ^ Int.log 2 x := by
    rw [roundoff, ← zpow_add₀ two_ne_zero, div_eq_mul_inv, ← zpow_sub_one₀ two_ne_zero]
    congr 1
    ring
  have hhalf := abs_nearest_sub_le_half x
  rw [hgrid, hpow] at hhalf
  exact hhalf.trans (mul_le_mul_of_nonneg_left (zpow_log_le hx) roundoff_pos.le)

/-- The error is at most half a unit in the last place. -/
theorem abs_nearest_sub_le (hx : 0 ≤ x) : |nearest x - x| ≤ roundoff * x + underflow := by
  have hrelative : 0 ≤ roundoff * x := mul_nonneg roundoff_pos.le hx
  rcases hx.eq_or_lt with rfl | hpos
  · simp [underflow_pos.le]
  by_cases hlog : -1022 ≤ Int.log 2 x
  · exact (abs_nearest_sub_le_of_large hpos hlog).trans (le_add_of_nonneg_right underflow_pos.le)
  · have hgrid : gridExponent x = -1074 := by
      rw [gridExponent]
      omega
    have hhalf := abs_nearest_sub_le_half x
    rw [hgrid, div_eq_mul_inv, ← zpow_sub_one₀ two_ne_zero] at hhalf
    exact hhalf.trans (le_add_of_nonneg_of_le hrelative le_rfl)

/-- A multiple of the least double does not underflow. -/
theorem abs_nearest_sub_le_of_multiple (hx : 0 ≤ x) (h : x = k * 2 ^ (-1074 : ℤ)) :
    |nearest x - x| ≤ roundoff * x := by
  rcases hx.eq_or_lt with rfl | hpos
  · simp
  by_cases hlog : -1022 ≤ Int.log 2 x
  · exact abs_nearest_sub_le_of_large hpos hlog
  · have hgrid : gridExponent x ≤ -1074 := by
      rw [gridExponent]
      omega
    rw [nearest_eq_of_multiple hgrid h, sub_self, abs_zero]
    exact mul_nonneg roundoff_pos.le hx

end Double

end TraceRecovery
