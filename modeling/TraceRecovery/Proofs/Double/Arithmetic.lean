import TraceRecovery.Proofs.Double.Value

/-!
# Arithmetic of doubles

Sums, products and quotients of finite doubles from zero on are the sums, products and quotients of
their values, rounded once (`Double.rounds_add`, `Double.rounds_mul`, `Double.rounds_div`). So are
counts (`Double.rounds_ofNat`).
-/

namespace TraceRecovery

namespace Double

open Float.Model (UnpackedFloat Format totalExponent)
open Float.Model.UnpackedFloat (Sign accuracyOfFraction roundWithAccuracy)

variable {s : Sign} {m m' n : ℕ} {e e' : ℤ} {x y : Float} {q : ℚ}

/-! ## Before packing -/

theorem rounds_exact (he : e ≤ max (m.log2 + e - 52) (-1074)) :
    Rounds (Float.Model.pack (roundWithAccuracy Format.binary64 .positive m e .exact)).unpack
      (m * 2 ^ e) := by
  simpa using rounds_roundWithAccuracy (represents_exact m) Nat.one_pos he

/-- A mantissa is filled up with zeros before it is rounded. -/
theorem rounds_round (hm : 0 < m) (e : ℤ) :
    Rounds (Float.Model.pack (UnpackedFloat.round Format.binary64 .positive m e)).unpack
      (m * 2 ^ e) := by
  generalize hk : (e - max (m.log2 + e - 52) (-1074)).toNat = k
  have hround : UnpackedFloat.round Format.binary64 .positive m e =
      roundWithAccuracy Format.binary64 .positive (m * 2 ^ k) (e - k) .exact := by
    rw [UnpackedFloat.round]
    simp only [targetExponent_eq, UnpackedFloat.decreaseExponent, Nat.shiftLeft_eq, hk]
  have hvalue : ((m * 2 ^ k : ℕ) * 2 ^ (e - k) : ℚ) = m * 2 ^ e := by
    rw [zpow_sub₀ two_ne_zero, zpow_natCast]
    push_cast
    field_simp
  have hexact := rounds_exact (m := m * 2 ^ k) (e := e - k) (by
    rw [log2_mul_two_pow hm]
    omega)
  rw [hround, ← hvalue]
  exact hexact

theorem normalize_natCast (hm : 0 < m) (e : ℤ) (s : Sign) :
    UnpackedFloat.normalize Format.binary64 m e s =
      UnpackedFloat.round Format.binary64 .positive m e := by
  have hpositive : compare (m : ℤ) 0 = .gt := compare_gt_iff_gt.mpr (by exact_mod_cast hm)
  rw [UnpackedFloat.normalize, hpositive]
  rfl

theorem rounds_pack_add (hm : 0 < m) (hm' : 0 < m') :
    Rounds (Float.Model.pack (UnpackedFloat.add Format.binary64 (.finite .positive m e hm)
      (.finite .positive m' e' hm'))).unpack (m * 2 ^ e + m' * 2 ^ e') := by
  have hscaled := two_pow_toNat_mul (min_le_left e e')
  have hscaled' := two_pow_toNat_mul (min_le_right e e')
  generalize hj : (e - min e e').toNat = j at hscaled
  generalize hj' : (e' - min e e').toNat = j' at hscaled'
  have hpos : 0 < m * 2 ^ j + m' * 2 ^ j' := by positivity
  have hadd : UnpackedFloat.add Format.binary64 (.finite .positive m e hm)
      (.finite .positive m' e' hm') =
        UnpackedFloat.round Format.binary64 .positive (m * 2 ^ j + m' * 2 ^ j') (min e e') := by
    rw [← normalize_natCast hpos _ .positive]
    simp only [UnpackedFloat.add, UnpackedFloat.decreaseExponent, hj, hj', Nat.shiftLeft_eq,
      Sign.apply]
    rw [Nat.cast_add]
  have hvalue : ((m * 2 ^ j + m' * 2 ^ j' : ℕ) * 2 ^ min e e' : ℚ) = m * 2 ^ e + m' * 2 ^ e' := by
    rw [← hscaled, ← hscaled']
    push_cast
    ring
  rw [hadd, ← hvalue]
  exact rounds_round hpos _

theorem rounds_pack_mul (hm : 0 < m) (hm' : 0 < m') (h : Fits m e) (h' : Fits m' e') :
    Rounds (Float.Model.pack (UnpackedFloat.mul Format.binary64 (.finite .positive m e hm)
      (.finite .positive m' e' hm'))).unpack (m * 2 ^ e * (m' * 2 ^ e')) := by
  have hexp : e + e' ≤ max ((m * m').log2 + (e + e') - 52) (-1074) := by
    have hfull : 2 ^ 52 ≤ m * m' ∨ e + e' ≤ -1074 := by
      rcases h.full with hfull | he
      · exact .inl (hfull.trans (Nat.le_mul_of_pos_right m hm'))
      · rcases h'.full with hfull | he'
        · exact .inl (hfull.trans (Nat.le_mul_of_pos_left m' hm))
        · omega
    rcases hfull with hfull | he
    · have hlog := (Nat.le_log2 (by positivity)).mpr hfull
      omega
    · omega
  have hvalue : ((m * m' : ℕ) * 2 ^ (e + e') : ℚ) = m * 2 ^ e * (m' * 2 ^ e') := by
    rw [zpow_add₀ two_ne_zero]
    push_cast
    ring
  rw [← hvalue]
  exact rounds_exact hexp

theorem rounds_pack_div (hm : 0 < m) (hm' : 0 < m') :
    Rounds (Float.Model.pack (UnpackedFloat.div Format.binary64 (.finite .positive m e hm)
      (.finite .positive m' e' hm'))).unpack (m * 2 ^ e / (m' * 2 ^ e')) := by
  have htarget : Format.binary64.targetExponent (totalExponent m e - totalExponent m' e') =
      max (m.log2 + e - (m'.log2 + e') - 53) (-1074) := by
    show max (((m.log2 : ℤ) + 1 + e) - (m'.log2 + 1 + e') - 53) (3 - 1024 - 53) = _
    omega
  generalize ht : min (e - e') (max (m.log2 + e - (m'.log2 + e') - 53) (-1074)) = t
  have hscaled := two_pow_toNat_mul (ht ▸ min_le_left (e - e') _)
  generalize hk : (e - e' - t).toNat = k at hscaled
  have hdiv : UnpackedFloat.div Format.binary64 (.finite .positive m e hm)
      (.finite .positive m' e' hm') = roundWithAccuracy Format.binary64 .positive (m * 2 ^ k / m') t
        (accuracyOfFraction (m * 2 ^ k % m') m') := by
    simp only [UnpackedFloat.div, UnpackedFloat.divCore, htarget, ht, hk, Nat.shiftLeft_eq]
    rfl
  have hvalue : ((m * 2 ^ k : ℕ) / m' * 2 ^ t : ℚ) = m * 2 ^ e / (m' * 2 ^ e') := by
    have hsplit : (m * 2 ^ k / m' * 2 ^ t : ℚ) = m / m' * (2 ^ k * 2 ^ t) := by ring
    push_cast
    rw [hsplit, hscaled, zpow_sub₀ two_ne_zero, div_mul_div_comm]
  -- The first mantissa is shifted so far that the quotient has 53 bits, or is subnormal.
  have hexp : t ≤ max ((m * 2 ^ k / m').log2 + t - 52) (-1074) := by
    by_cases hsmall : m.log2 + e - (m'.log2 + e') - 53 ≤ (-1074 : ℤ)
    · omega
    · have hbits : m'.log2 + 53 ≤ m.log2 + k := by omega
      have hquotient : 2 ^ 52 ≤ m * 2 ^ k / m' := by
        rw [Nat.le_div_iff_mul_le hm']
        calc 2 ^ 52 * m' ≤ 2 ^ 52 * 2 ^ (m'.log2 + 1) := Nat.mul_le_mul_left _ Nat.lt_log2_self.le
          _ = 2 ^ (m'.log2 + 53) := by ring
          _ ≤ 2 ^ (m.log2 + k) := Nat.pow_le_pow_right two_pos hbits
          _ = 2 ^ m.log2 * 2 ^ k := Nat.pow_add ..
          _ ≤ m * 2 ^ k := Nat.mul_le_mul_right _ (Nat.log2_self_le hm.ne')
      have hlog := (Nat.le_log2 (by positivity)).mpr hquotient
      omega
  rw [hdiv, ← hvalue]
  exact rounds_roundWithAccuracy (represents_fraction hm') hm' hexp

/-- A double is not rounded. -/
theorem rounds_pack_fits (hm : 0 < m) (h : Fits m e) (hq : q = m * 2 ^ e) :
    Rounds (Float.Model.pack (.finite .positive m e hm)).unpack q :=
  rounds_pack_finite hm (by rw [hq, nearest_of_double h.lt h.le]) h.lt h.le h.full

theorem rounds_pack_zero (s : Sign) (hq : q = 0) :
    Rounds (Float.Model.pack (.zero s)).unpack q := by
  rw [unpack_pack_zero, hq]
  exact rounds_zero s nearest_zero

/-! ## Doubles -/

theorem Rounds.value_eq (h : Rounds x.toModel.unpack q) (fx : x.isFinite = true) :
    value x = nearest q := h.magnitude_eq fx

theorem Rounds.isAmount (h : Rounds x.toModel.unpack q) (hq : nearest q < 2 ^ 1024) :
    IsAmount x := by
  have fx : x.isFinite = true := h.isFinite_iff.mpr hq
  exact ⟨fx, nonneg_of_notBelowZero h.notBelowZero (isNumber_of_isFinite fx)⟩

theorem Rounds.lt_of_isFinite (h : Rounds x.toModel.unpack q) (fx : x.isFinite = true) :
    nearest q < 2 ^ 1024 := h.isFinite_iff.mp fx

section Operations

variable (hx : IsAmount x) (hy : IsAmount y)

include hx hy

theorem rounds_add : Rounds (x + y).toModel.unpack (value x + value y) := by
  show Rounds (Float.Model.pack (UnpackedFloat.add Format.binary64 x.toModel.unpack
    y.toModel.unpack)).unpack _
  rw [value, value]
  rcases hx.zero_or_finite with ⟨s, hux⟩ | ⟨m, e, hm, hux⟩ <;>
    rcases hy.zero_or_finite with ⟨t, huy⟩ | ⟨m', e', hm', huy⟩ <;> rw [hux, huy]
  · have hzero : magnitude (.zero s) + magnitude (.zero t) = 0 := add_zero 0
    cases s <;> cases t <;> exact rounds_pack_zero _ hzero
  · exact rounds_pack_fits hm' (fits_of_unpack huy) (zero_add _)
  · exact rounds_pack_fits hm (fits_of_unpack hux) (add_zero _)
  · exact rounds_pack_add hm hm'

theorem rounds_mul : Rounds (x * y).toModel.unpack (value x * value y) := by
  show Rounds (Float.Model.pack (UnpackedFloat.mul Format.binary64 x.toModel.unpack
    y.toModel.unpack)).unpack _
  rw [value, value]
  rcases hx.zero_or_finite with ⟨s, hux⟩ | ⟨m, e, hm, hux⟩ <;>
    rcases hy.zero_or_finite with ⟨t, huy⟩ | ⟨m', e', hm', huy⟩ <;> rw [hux, huy]
  · exact rounds_pack_zero _ (zero_mul _)
  · exact rounds_pack_zero _ (zero_mul _)
  · exact rounds_pack_zero _ (mul_zero _)
  · exact rounds_pack_mul hm hm' (fits_of_unpack hux) (fits_of_unpack huy)

theorem rounds_div (hpos : 0 < y) : Rounds (x / y).toModel.unpack (value x / value y) := by
  have hvalue := (value_pos_iff hy).mpr hpos
  show Rounds (Float.Model.pack (UnpackedFloat.div Format.binary64 x.toModel.unpack
    y.toModel.unpack)).unpack _
  rw [value] at hvalue
  rw [value, value]
  rcases hy.zero_or_finite with ⟨t, huy⟩ | ⟨m', e', hm', huy⟩
  · rw [huy] at hvalue
    exact absurd hvalue (lt_irrefl _)
  rcases hx.zero_or_finite with ⟨s, hux⟩ | ⟨m, e, hm, hux⟩ <;> rw [hux, huy]
  · exact rounds_pack_zero _ (zero_div _)
  · exact rounds_pack_div hm hm'

end Operations

/-- A count is rounded. -/
theorem rounds_ofNat (hn : n < 2 ^ 64) : Rounds (Float.ofNat n).toModel.unpack n := by
  rcases Nat.eq_zero_or_pos n with rfl | hpos
  · have hzero : (Float.ofNat 0).toModel.unpack = .zero .positive := rfl
    rw [hzero]
    exact rounds_zero _ nearest_zero
  obtain ⟨a, ha, hunpack⟩ := unpack_ofNat hpos hn
  obtain ⟨hmin, hmax⟩ := ha.roundedMantissa_mem hpos
  have hlog : Int.log 2 (n : ℚ) = n.log2 := by
    simpa using log_eq_log2_add (x := n) (e := 0) hpos (by simp) (by simp)
  have hgrid : gridExponent n = n.log2 - 52 := by
    rw [gridExponent, hlog]
    omega
  have hscaled : ((n * 2 ^ 53 : ℕ) / (2 ^ (n.log2 + 1) : ℕ) : ℚ) = n / 2 ^ (n.log2 - 52 : ℤ) := by
    rw [zpow_sub₀ two_ne_zero, zpow_natCast, zpow_ofNat]
    push_cast
    field_simp
    ring
  have hround := ha.roundEven_eq (by positivity)
  rw [hscaled] at hround
  have hpack := pack_unpack (Float.ofNat n).toModel
  rw [← hpack, hunpack]
  refine rounds_pack_shifted ?_ hmax (by omega) (.inl hmin)
  rw [nearest, hgrid, hround, Int.cast_natCast]

end Double

end TraceRecovery
