import TraceRecovery.Proofs.Double.Counts
import TraceRecovery.Proofs.Double.Nearest
import TraceRecovery.Proofs.Double.Overflow

/-!
# Values of doubles

A double that is finite has a rational value (`Double.value`), which follows its place in the order
(`Double.value_lt_iff`). Sums, products and quotients of doubles from zero on are the nearest doubles
to those of their values, or infinite if there is none below `2 ^ 1024` (`Double.Rounds`).
-/

namespace TraceRecovery

namespace Double

open Float.Model (UnpackedFloat Format)
open Float.Model.UnpackedFloat (Sign Accuracy ExtendedMantissa roundWithAccuracy)

variable {u : UnpackedFloat} {a : ExtendedMantissa} {acc : Accuracy} {s : Sign} {m m' n d : ℕ}
  {e e' : ℤ} {x y : Float}

/-! ## Values -/

/-- The number that is read from the bits of a double; zero if there is none. -/
def magnitude : UnpackedFloat → ℚ
  | .finite s m e _ => s.apply m * 2 ^ e
  | _ => 0

/-- The value of a double. -/
def value (x : Float) : ℚ := magnitude x.toModel.unpack

/-- The mantissa and the exponent of a double: the mantissa has 53 bits, or it has fewer and the
exponent is the least one. -/
structure Fits (m : ℕ) (e : ℤ) : Prop where
  lt : m < 2 ^ 53
  le : -1074 ≤ e
  lt' : e < 972
  full : 2 ^ 52 ≤ m ∨ e = -1074

theorem fits_of_unpack {hm : 0 < m} (h : x.toModel.unpack = .finite s m e hm) : Fits m e := by
  have hpack : (Float.Model.pack (.finite s m e hm)).unpack = .finite s m e hm := by
    rw [← h, pack_unpack]
  rw [unpack_pack_finite] at hpack
  split at hpack
  · cases hpack
  · split at hpack
    · rename_i hlarge hfull
      obtain ⟨hle, hlt⟩ := (Nat.log2_eq_iff hm.ne').mp hfull.1
      exact ⟨hlt, hfull.2, by omega, .inl hle⟩
    · split at hpack
      · cases hpack
      · injection hpack with _ hm he
        have hlt := Nat.mod_lt m (y := 2 ^ 52) (by positivity)
        exact ⟨by omega, by omega, by omega, .inr he.symm⟩

theorem Fits.lt_of_lt (h : Fits m e) (h' : Fits m' e') (hlt : e < e' ∨ e = e' ∧ m < m') :
    (m * 2 ^ e : ℚ) < m' * 2 ^ e' := by
  rcases hlt with hlt | ⟨rfl, hlt⟩
  · -- The exponent of the second number is not the least one, so its mantissa is full.
    have hfull : 2 ^ 52 ≤ m' := h'.full.resolve_right (by have := h.le; omega)
    have hm : (m : ℚ) < 2 ^ 53 := by exact_mod_cast h.lt
    have hm' : (2 ^ 52 : ℚ) ≤ m' := by exact_mod_cast hfull
    have hpow : (2 : ℚ) ^ (e + 1) ≤ 2 ^ e' := zpow_le_zpow_right₀ one_le_two hlt
    rw [zpow_add_one₀ two_ne_zero] at hpow
    have hpos := two_zpow_pos e
    calc (m * 2 ^ e : ℚ) < 2 ^ 53 * 2 ^ e := mul_lt_mul_of_pos_right hm hpos
      _ = 2 ^ 52 * (2 ^ e * 2) := by ring
      _ ≤ m' * 2 ^ e' := mul_le_mul hm' hpow (by positivity) (by positivity)
  · exact mul_lt_mul_of_pos_right (by exact_mod_cast hlt) (two_zpow_pos e)

theorem magnitude_nonneg (h : NotBelowZero u) : 0 ≤ magnitude u := by
  cases h with
  | negativeZero => exact le_rfl
  | unsigned h =>
    cases h with
    | finite m e hm =>
      show (0 : ℚ) ≤ ((m : ℤ) : ℚ) * 2 ^ e
      positivity
    | _ => exact le_rfl

theorem magnitude_finite (hm : 0 < m) : magnitude (.finite .positive m e hm) = m * 2 ^ e := rfl

/-! ## Amounts -/

/-- A finite number from zero on. -/
structure IsAmount (x : Float) : Prop where
  isFinite : x.isFinite = true
  nonneg : 0 ≤ x

theorem isAmount_zero : IsAmount 0 := ⟨rfl, by decide⟩

theorem isAmount_of_mem (h : 0 ≤ x ∧ x ≤ 1) : IsAmount x := ⟨isFinite_of_mem h, h.1⟩

theorem IsAmount.value_nonneg (hx : IsAmount x) : 0 ≤ value x :=
  magnitude_nonneg (notBelowZero_of_nonneg hx.nonneg)

/-- An amount is zero or a positive number. -/
theorem IsAmount.zero_or_finite (hx : IsAmount x) : (∃ s, x.toModel.unpack = .zero s) ∨
    ∃ m e hm, x.toModel.unpack = .finite .positive m e hm := by
  have hfinite : x.toModel.unpack.isFinite = true := hx.isFinite
  have hplus := notBelowZero_of_nonneg hx.nonneg
  generalize x.toModel.unpack = u at hfinite hplus
  cases hplus with
  | negativeZero => exact .inl ⟨_, rfl⟩
  | unsigned h =>
    cases h with
    | zero => exact .inl ⟨_, rfl⟩
    | finite m e hm => exact .inr ⟨m, e, hm, rfl⟩
    | _ => cases hfinite

/-- The values of amounts follow their places. -/
theorem value_lt_of_lt (hx : IsAmount x) (hy : IsAmount y) (h : x < y) : value x < value y := by
  obtain ⟨-, -, hplace⟩ := lt_iff.mp h
  rw [place, place] at hplace
  rw [value, value]
  rcases hx.zero_or_finite with ⟨s, hux⟩ | ⟨m, e, hm, hux⟩ <;>
    rcases hy.zero_or_finite with ⟨t, huy⟩ | ⟨m', e', hm', huy⟩ <;> rw [hux, huy] at hplace
  · exact absurd hplace (lt_irrefl _)
  · rw [hux, huy, magnitude_finite]
    show (0 : ℚ) < _
    positivity
  · simp [rank, Prod.Lex.toLex_lt_toLex, Sign.apply] at hplace
  · rw [hux, huy, magnitude_finite, magnitude_finite]
    refine (fits_of_unpack hux).lt_of_lt (fits_of_unpack huy) ?_
    simpa [rank, Prod.Lex.toLex_lt_toLex, Sign.apply] using hplace

theorem value_eq_of_place_eq (hx : IsAmount x) (hy : IsAmount y) (h : place x = place y) :
    value x = value y := by
  rw [place, place] at h
  rw [value, value]
  rcases hx.zero_or_finite with ⟨s, hux⟩ | ⟨m, e, hm, hux⟩ <;>
    rcases hy.zero_or_finite with ⟨t, huy⟩ | ⟨m', e', hm', huy⟩ <;> rw [hux, huy] at h
  · rw [hux, huy]
    rfl
  · simp [rank, Sign.apply] at h
  · simp [rank, Sign.apply] at h
  · have hsame : e = e' ∧ m = m' := by simpa [rank, Sign.apply] using h
    rw [hux, huy, magnitude_finite, magnitude_finite, hsame.1, hsame.2]

theorem value_le_iff (hx : IsAmount x) (hy : IsAmount y) : value x ≤ value y ↔ x ≤ y := by
  have nx := isNumber_of_isFinite hx.isFinite
  have ny := isNumber_of_isFinite hy.isFinite
  rw [← not_lt_iff ny nx]
  refine ⟨fun h hlt => absurd (value_lt_of_lt hy hx hlt) (not_lt.mpr h), fun h => ?_⟩
  rcases (le_iff.mp ((not_lt_iff ny nx).mp h)).2.2.lt_or_eq with hlt | heq
  · exact (value_lt_of_lt hx hy (lt_iff.mpr ⟨nx, ny, hlt⟩)).le
  · exact (value_eq_of_place_eq hx hy heq).le

theorem value_lt_iff (hx : IsAmount x) (hy : IsAmount y) : value x < value y ↔ x < y := by
  rw [← not_le, value_le_iff hy hx,
    ← not_lt_iff (isNumber_of_isFinite hx.isFinite) (isNumber_of_isFinite hy.isFinite), not_not]

theorem value_pos_iff (hx : IsAmount x) : 0 < value x ↔ 0 < x := value_lt_iff isAmount_zero hx

theorem value_zero : value 0 = 0 := rfl

theorem value_one : value 1 = 1 := by
  have hone : (1 : Float).toModel.unpack = .finite .positive (2 ^ 52) (-52) (by decide) := rfl
  rw [value, hone, magnitude_finite]
  norm_num

theorem isAmount_one : IsAmount 1 := ⟨rfl, by decide⟩

theorem value_le_one (h : 0 ≤ x ∧ x ≤ 1) : value x ≤ 1 :=
  value_one ▸ (value_le_iff (isAmount_of_mem h) isAmount_one).mpr h.2

/-! ## Rounding -/

/-- What has been read from the bits of a double is the nearest one to a number from zero on. It is
finite unless that is `2 ^ 1024` at least. -/
structure Rounds (u : UnpackedFloat) (q : ℚ) : Prop where
  notBelowZero : NotBelowZero u
  isFinite_iff : u.isFinite = true ↔ nearest q < 2 ^ 1024
  magnitude_eq : u.isFinite = true → magnitude u = nearest q

/-- The rounded mantissa is the nearest whole number. -/
theorem Represents.roundEven_eq (h : Represents a n d) (hd : 0 < d) :
    roundEven (n / d) = a.roundedMantissa := by
  obtain ⟨m, r, t⟩ := a
  have hpos : (0 : ℚ) < d := by exact_mod_cast hd
  cases r <;> cases t <;> simp only [Represents] at h
  case false.false =>
    rw [h, Nat.cast_mul, mul_div_cancel_right₀ _ hpos.ne']
    exact roundEven_intCast m
  case false.true =>
    obtain ⟨hlow, hhigh⟩ := h
    qify at hlow hhigh
    refine roundEven_of_lt (k := m) ?_ ?_
    · rw [le_div_iff₀ hpos]
      exact hlow.le
    · rw [div_lt_iff₀ hpos, Int.cast_natCast]
      linarith
  case true.false =>
    qify at h
    refine (roundEven_of_eq (k := m) ?_).trans (by rfl)
    rw [div_eq_iff hpos.ne', Int.cast_natCast]
    linarith
  case true.true =>
    obtain ⟨hlow, hhigh⟩ := h
    qify at hlow hhigh
    refine (roundEven_of_gt (k := m) ?_ ?_).trans (by rfl)
    · rw [lt_div_iff₀ hpos, Int.cast_natCast]
      linarith
    · rw [div_lt_iff₀ hpos, Int.cast_natCast]
      exact hhigh

variable {q : ℚ}

theorem rounds_zero (s : Sign) (hq : nearest q = 0) : Rounds (.zero s) q := by
  refine ⟨?_, ?_, fun _ => hq.symm⟩
  · cases s
    · exact .negativeZero
    · exact .unsigned .zero
  · refine iff_of_true rfl ?_
    rw [hq]
    positivity

/-- The mantissa and the exponent of a double are packed without a change, unless the exponent is
too large. -/
theorem rounds_pack_finite (hm : 0 < m) (hq : nearest q = m * 2 ^ e) (hlt : m < 2 ^ 53)
    (he : -1074 ≤ e) (hfull : 2 ^ 52 ≤ m ∨ e = -1074) :
    Rounds (Float.Model.pack (.finite .positive m e hm)).unpack q := by
  rw [unpack_pack_finite]
  by_cases hlarge : 972 ≤ e
  · have hmin : (2 ^ 52 : ℚ) ≤ m := by exact_mod_cast hfull.resolve_right (by omega)
    have hpow : (2 : ℚ) ^ (972 : ℤ) ≤ 2 ^ e := zpow_le_zpow_right₀ one_le_two hlarge
    rw [if_pos hlarge]
    refine ⟨.unsigned .infinity, iff_of_false Bool.false_ne_true ?_, nofun⟩
    rw [hq, not_lt]
    calc (2 ^ 1024 : ℚ) = 2 ^ 52 * 2 ^ (972 : ℤ) := by rw [zpow_ofNat, ← pow_add]
      _ ≤ m * 2 ^ e := mul_le_mul hmin hpow (by positivity) (by positivity)
  · have hmax : (m : ℚ) < 2 ^ 53 := by exact_mod_cast hlt
    have hpow : (2 : ℚ) ^ e ≤ 2 ^ (971 : ℤ) := zpow_le_zpow_right₀ one_le_two (by omega)
    have hfinite : nearest q < 2 ^ 1024 := by
      rw [hq]
      calc (m * 2 ^ e : ℚ) < 2 ^ 53 * 2 ^ e := mul_lt_mul_of_pos_right hmax (two_zpow_pos e)
        _ ≤ 2 ^ 53 * 2 ^ (971 : ℤ) := mul_le_mul_of_nonneg_left hpow (by positivity)
        _ = 2 ^ 1024 := by rw [zpow_ofNat, ← pow_add]
    have hkept : ∀ {m' e'} (hm' : 0 < m'), m' = m → e' = e →
        Rounds (.finite .positive m' e' hm') q := by
      rintro _ _ hm' rfl rfl
      exact ⟨.unsigned (.finite _ _ _), iff_of_true rfl hfinite, fun _ => hq.symm⟩
    rw [if_neg hlarge]
    split
    · exact hkept hm rfl rfl
    · rename_i hsmall
      -- A mantissa with fewer bits has the least exponent.
      have hbits : m < 2 ^ 52 := by
        by_contra hle
        exact hsmall ⟨(Nat.log2_eq_iff hm.ne').mpr ⟨not_lt.mp hle, hlt⟩, he⟩
      have hmod : m % 2 ^ 52 = m := Nat.mod_eq_of_lt hbits
      rw [dif_neg (by omega)]
      exact hkept _ hmod (hfull.resolve_left (not_le.mpr hbits)).symm

/-- So are mantissas that have not been shifted yet, because they have at most 53 bits, or one more
if all others are zero. -/
theorem rounds_pack_shifted (hq : nearest q = m * 2 ^ e) (hm : m ≤ 2 ^ 53) (he : -1074 ≤ e)
    (hfull : 2 ^ 52 ≤ m ∨ e = -1074) :
    Rounds (Float.Model.pack (shifted .positive m e)).unpack q := by
  rcases Nat.eq_zero_or_pos m with rfl | hpos
  · have hzero := ((represents_exact 0).shiftRight Nat.one_pos (excess 0 e)).mantissa_mul_le
    have hmantissa : (ExtendedMantissa.ofMantissaAndAccuracy 0 .exact >>> excess 0 e).mantissa = 0 :=
      (Nat.mul_eq_zero.mp (Nat.le_zero.mp hzero)).resolve_right (by positivity)
    rw [shifted, dif_pos hmantissa, unpack_pack_zero]
    exact rounds_zero _ (by rw [hq, Nat.cast_zero, zero_mul])
  rcases hm.lt_or_eq with hlt | rfl
  · have hlog : m.log2 < 53 := (Nat.log2_lt hpos.ne').mpr hlt
    have hexcess : excess m e = 0 := by
      rw [excess]
      omega
    have hshifted : shifted .positive m e = .finite .positive m e hpos := by
      simp only [shifted, hexcess, Nat.cast_zero, Int.add_zero]
      exact dif_neg hpos.ne'
    rw [hshifted]
    exact rounds_pack_finite hpos hq hlt he hfull
  · obtain ⟨m, e', hm, hshifted, hlog, hcases⟩ :=
      exists_shifted (s := .positive) (n := 2 ^ 53) (by decide) le_rfl he
    have hhalved : e' = e + 1 ∧ m = 2 ^ 52 ∧ 2 ^ 53 = 2 ^ 53 := by
      refine hcases.resolve_left fun h => ?_
      rw [h.2, Nat.log2_two_pow] at hlog
      omega
    obtain ⟨rfl, rfl, -⟩ := hhalved
    rw [hshifted]
    refine rounds_pack_finite hm ?_ (by decide) (by omega) (.inl le_rfl)
    rw [hq, zpow_add_one₀ two_ne_zero]
    push_cast
    ring

/-! ## Rounding a quotient -/

theorem Represents.lt_succ_mul (h : Represents a n d) (hd : 0 < d) : n < (a.mantissa + 1) * d := by
  obtain ⟨m, r, t⟩ := a
  cases r <;> cases t <;> simp only [Represents] at h ⊢ <;> linarith

section Quotient

variable (h : Represents (.ofMantissaAndAccuracy m acc) n d) (hd : 0 < d)
  (he : e ≤ max (m.log2 + e - 52) (-1074))

include h hd he

/-- The exponent of a mantissa that has been shifted is that of the doubles around the quotient. -/
theorem gridExponent_quotient (hn : 0 < n) : gridExponent (n / d * 2 ^ e) = e + excess m e := by
  have hpos : (0 : ℚ) < d := by exact_mod_cast hd
  have hpow := two_zpow_pos e
  have hlow := h.mantissa_mul_le
  have hhigh := h.lt_succ_mul hd
  rw [mantissa_ofMantissaAndAccuracy] at hlow hhigh
  have hle : (m * 2 ^ e : ℚ) ≤ n / d * 2 ^ e := by
    refine mul_le_mul_of_nonneg_right ?_ hpow.le
    rw [le_div_iff₀ hpos]
    exact_mod_cast hlow
  have hlt : (n / d * 2 ^ e : ℚ) < (m + 1) * 2 ^ e := by
    refine mul_lt_mul_of_pos_right ?_ hpow
    rw [div_lt_iff₀ hpos]
    exact_mod_cast hhigh
  rw [gridExponent, excess]
  rcases Nat.eq_zero_or_pos m with rfl | hm
  · have hzero : Nat.log2 0 = 0 := rfl
    have hquotient : (0 : ℚ) < n / d * 2 ^ e := by positivity
    have hlog := (Int.lt_zpow_iff_log_lt (b := 2) Nat.one_lt_two hquotient).mp
      (by simpa using hlt)
    omega
  · rw [log_eq_log2_add hm hle hlt]
    omega

theorem rounds_roundWithAccuracy :
    Rounds (Float.Model.pack (roundWithAccuracy Format.binary64 .positive m e acc)).unpack
      (n / d * 2 ^ e) := by
  have hexp : e + excess m e = max (m.log2 + e - 52) (-1074) := by
    rw [excess]
    omega
  have hlow := h.mantissa_mul_le
  have hhigh := h.lt_succ_mul hd
  have hgrid := gridExponent_quotient h hd he
  have hshift := h.shiftRight hd (excess m e)
  rw [mantissa_ofMantissaAndAccuracy] at hlow hhigh
  rw [roundWithAccuracy_eq]
  generalize (ExtendedMantissa.ofMantissaAndAccuracy m acc >>> excess m e) = b at hshift
  have hscaled : (n / (d * 2 ^ excess m e : ℕ) : ℚ) = n / d * 2 ^ e / 2 ^ (e + excess m e) := by
    have hpos := two_zpow_pos e
    rw [zpow_add₀ two_ne_zero, zpow_natCast]
    push_cast
    field_simp
  have hround := hshift.roundEven_eq (by positivity)
  rw [hscaled] at hround
  refine rounds_pack_shifted ?_ ?_ (by omega) ?_
  · rcases Nat.eq_zero_or_pos n with rfl | hn
    · have hzero : b.roundedMantissa = 0 :=
        Nat.le_zero.mp (hshift.roundedMantissa_le (by positivity) (by simp))
      simp [hzero]
    · rw [nearest, hgrid hn, hround]
      rfl
  · refine hshift.roundedMantissa_le (by positivity) ?_
    calc n ≤ (m + 1) * d := hhigh.le
      _ ≤ 2 ^ (53 + excess m e) * d := by
        refine Nat.mul_le_mul_right d ((Nat.lt_log2_self (n := m)).trans_le ?_)
        exact Nat.pow_le_pow_right two_pos (by omega)
      _ = 2 ^ 53 * (d * 2 ^ excess m e) := by ring
  · refine or_iff_not_imp_right.mpr fun hne => hshift.le_roundedMantissa (by positivity) ?_
    have hlog : m.log2 = 52 + excess m e := by omega
    have hm : m ≠ 0 := by
      rintro rfl
      have hzero : Nat.log2 0 = 0 := rfl
      omega
    calc 2 ^ 52 * (d * 2 ^ excess m e) = 2 ^ m.log2 * d := by
          rw [hlog]
          ring
      _ ≤ m * d := Nat.mul_le_mul_right d (Nat.log2_self_le hm)
      _ ≤ n := hlow

end Quotient

end Double

end TraceRecovery
