import TraceRecovery.Proofs.Double.Rounding
import TraceRecovery.Proofs.Double.Sign

/-!
# Counts as doubles

A count is rounded to the nearest double (`Double.unpack_ofNat`). So a greater count is no smaller
double, and the quotient of two counts of which the former is no greater lies between zero and one
(`Double.ofNat_div_mem`). This holds of all counts below `2 ^ 64`: the quotient of two counts that
are too large for a double is no number at all.
-/

namespace TraceRecovery

namespace Double

open Float.Model (UnpackedFloat Format)
open Float.Model.UnpackedFloat (Sign ExtendedMantissa roundWithAccuracy)

variable {a : ExtendedMantissa} {s : Sign} {m n k : ℕ} {e : ℤ}

theorem unpack_pack_shifted (hle : 2 ^ 52 ≤ m) (hle' : m ≤ 2 ^ 53) (he : -1074 ≤ e) (he' : e < 971) :
    (Float.Model.pack (shifted s m e)).unpack = shifted s m e := by
  obtain ⟨m', e', hm, hshifted, hlog, hme⟩ := exists_shifted (s := s) hle hle' he
  rw [hshifted, unpack_pack_finite, if_neg (by omega), if_pos ⟨hlog, by omega⟩]

/-- A mantissa, not rounded yet, that scales a count to the 53 bits of a double. -/
def Scaled (a : ExtendedMantissa) (n : ℕ) : Prop := Represents a (n * 2 ^ 53) (2 ^ (n.log2 + 1))

theorem Scaled.roundedMantissa_mem (hn : 0 < n) (h : Scaled a n) :
    2 ^ 52 ≤ a.roundedMantissa ∧ a.roundedMantissa ≤ 2 ^ 53 := by
  obtain ⟨hle, hlt⟩ := (Nat.log2_eq_iff hn.ne').mp rfl
  refine ⟨h.le_roundedMantissa (by positivity) ?_, h.roundedMantissa_le (by positivity) ?_⟩
  · have hpow : 2 ^ (n.log2 + 1) = 2 ^ n.log2 * 2 := Nat.pow_succ ..
    linarith
  · rw [Nat.mul_comm]
    exact Nat.mul_le_mul_left _ hlt.le

/-! ## Small counts -/

section Small

variable (hpos : 0 < n) (hlt : n < 2 ^ 53)

include hpos hlt

theorem log2_le_of_lt : n.log2 ≤ 52 := Nat.lt_succ_iff.mp ((Nat.log2_lt hpos.ne').mpr hlt)

theorem log2_filled : (n * 2 ^ (52 - n.log2)).log2 = 52 := by
  have hlog := log2_le_of_lt hpos hlt
  rw [log2_mul_two_pow hpos]
  omega

/-- A small count is a double: its mantissa is filled up with zeros at the end. -/
theorem unpack_toFloat :
    ∃ h, n.toUInt64.toFloat.toModel.unpack =
      .finite .positive (n * 2 ^ (52 - n.log2)) (n.log2 - 52) h := by
  have hlog := log2_le_of_lt hpos hlt
  have hfull := log2_filled hpos hlt
  have hcount : n.toUInt64.toNat = n := by
    rw [Nat.toUInt64, UInt64.toNat_ofNat_of_lt' (hlt.trans (by decide))]
  have hround : UnpackedFloat.ofUInt64 Format.binary64 n.toUInt64 =
      roundWithAccuracy Format.binary64 .positive (n * 2 ^ (52 - n.log2)) (n.log2 - 52) .exact := by
    have hpositive : compare (n : ℤ) 0 = .gt := compare_gt_iff_gt.mpr (by omega)
    have hshift : (0 - max ((n.log2 : ℤ) + 0 - 52) (-1074)).toNat = 52 - n.log2 := by omega
    have hexp : (0 : ℤ) - (52 - n.log2 : ℕ) = n.log2 - 52 := by omega
    rw [UnpackedFloat.ofUInt64, UnpackedFloat.ofNat, UnpackedFloat.ofInt, UnpackedFloat.normalize,
      hcount, hpositive]
    simp only [UnpackedFloat.round, targetExponent_eq, UnpackedFloat.decreaseExponent,
      Int.toNat_natCast, hshift, hexp, Nat.shiftLeft_eq]
  have hexact := roundWithAccuracy_exact (s := .positive) (e := n.log2 - 52) hfull (by omega)
    (by positivity) 0
  rw [Nat.pow_zero, Nat.mul_one, Nat.cast_zero, Int.sub_zero] at hexact
  refine ⟨by positivity, ?_⟩
  show (Float.Model.pack (UnpackedFloat.ofUInt64 Format.binary64 n.toUInt64)).unpack = _
  rw [hround, hexact, unpack_pack_finite, if_neg (by omega), if_pos ⟨hfull, by omega⟩]

theorem unpack_toFloat_mul_one : ∃ a, Scaled a n ∧
    (n.toUInt64.toFloat * 1).toModel.unpack =
      shifted .positive a.roundedMantissa (n.log2 - 52) := by
  have hlog := log2_le_of_lt hpos hlt
  have hfull := log2_filled hpos hlt
  obtain ⟨hm, hunpack⟩ := unpack_toFloat hpos hlt
  have hone : (1 : Float).toModel.unpack = .finite .positive (2 ^ 52) (-52) (by decide) := rfl
  have hmul : UnpackedFloat.mul Format.binary64 n.toUInt64.toFloat.toModel.unpack
      (1 : Float).toModel.unpack = .finite .positive (n * 2 ^ (52 - n.log2)) (n.log2 - 52) hm := by
    rw [hunpack, hone]
    exact roundWithAccuracy_exact hfull (by omega) hm 52
  refine ⟨⟨n * 2 ^ (52 - n.log2), false, false⟩, ?_, ?_⟩
  · have hpow : 53 = (52 - n.log2) + (n.log2 + 1) := by omega
    show n * 2 ^ 53 = n * 2 ^ (52 - n.log2) * 2 ^ (n.log2 + 1)
    rw [Nat.mul_assoc, ← Nat.pow_add, ← hpow]
  · show (Float.Model.pack (UnpackedFloat.mul Format.binary64 _ _)).unpack = _
    rw [hmul, unpack_pack_finite, if_neg (by omega), if_pos ⟨hfull, by omega⟩]
    exact (shifted_full hfull (by omega) hm).symm

end Small

/-! ## All counts -/

/-- The product of a count with `10 ^ 0` is rounded. -/
theorem unpack_pack_ofScientific (hpos : 0 < n) (hlt : n < 2 ^ 64) : ∃ a, Scaled a n ∧
    (Float.Model.pack (UnpackedFloat.ofScientific Format.binary64 n 0)).unpack =
      shifted .positive a.roundedMantissa (n.log2 - 52) := by
  have hlog : n.log2 < 64 := (Nat.log2_lt hpos.ne').mpr hlt
  have hexcess : excess (n * 2 ^ 53) (-53) = n.log2 + 1 := by
    rw [excess, log2_mul_two_pow hpos]
    omega
  have hscaled := (represents_exact (n * 2 ^ 53)).shiftRight Nat.one_pos (n.log2 + 1)
  rw [Nat.one_mul] at hscaled
  refine ⟨_, hscaled, ?_⟩
  obtain ⟨hle, hle'⟩ := Scaled.roundedMantissa_mem hpos hscaled
  have hmul : UnpackedFloat.ofScientific Format.binary64 n 0 =
      roundWithAccuracy Format.binary64 .positive (n * 2 ^ 53) (-53) .exact := by
    have hlarge : ¬ (0 : ℤ) < -((2 ^ 11 : ℤ) + n.log2) := by omega
    have hpower : 10 ^ Int.toNat 0 = 1 := rfl
    rw [UnpackedFloat.ofScientific, dif_neg hpos.ne', if_neg (by decide), if_neg hlarge,
      if_pos le_rfl]
    simp only [UnpackedFloat.mul, Nat.shiftLeft_eq, hpower, Nat.mul_one]
    rfl
  have hexp : (-53 : ℤ) + (n.log2 + 1 : ℕ) = n.log2 - 52 := by omega
  rw [hmul, roundWithAccuracy_eq, hexcess, hexp]
  exact unpack_pack_shifted hle hle' (by omega) (by omega)

/-- A positive number that a machine can count up to is rounded to the nearest double. -/
theorem unpack_ofNat (hpos : 0 < n) (hlt : n < 2 ^ 64) : ∃ a, Scaled a n ∧
    (Float.ofNat n).toModel.unpack = shifted .positive a.roundedMantissa (n.log2 - 52) := by
  show ∃ a, _ ∧ (Float.ofScientific n false 0).toModel.unpack = _
  unfold Float.ofScientific
  split
  · rename_i hsmall
    exact unpack_toFloat_mul_one hpos hsmall.1
  · exact unpack_pack_ofScientific hpos hlt

/-- Greater counts are no smaller doubles. -/
theorem unpack_ofNat_mono {n' : ℕ} (hpos : 0 < n) (hle : n ≤ n') (hlt : n' < 2 ^ 64) :
    ∃ m e hm m' e' hm', (Float.ofNat n).toModel.unpack = .finite .positive m e hm ∧
      (Float.ofNat n').toModel.unpack = .finite .positive m' e' hm' ∧
      m.log2 = 52 ∧ m'.log2 = 52 ∧ (e < e' ∨ e = e' ∧ m ≤ m') := by
  obtain ⟨a, ha, hunpack⟩ := unpack_ofNat hpos (hle.trans_lt hlt)
  obtain ⟨a', ha', hunpack'⟩ := unpack_ofNat (hpos.trans_le hle) hlt
  obtain ⟨hmin, hmax⟩ := ha.roundedMantissa_mem hpos
  obtain ⟨hmin', hmax'⟩ := ha'.roundedMantissa_mem (hpos.trans_le hle)
  obtain ⟨m, e, hm, hshifted, hlog, hme⟩ := exists_shifted (s := .positive)
    (e := n.log2 - 52) hmin hmax (by omega)
  obtain ⟨m', e', hm', hshifted', hlog', hme'⟩ := exists_shifted (s := .positive)
    (e := n'.log2 - 52) hmin' hmax' (by omega)
  refine ⟨m, e, hm, m', e', hm', hunpack.trans hshifted, hunpack'.trans hshifted', hlog, hlog', ?_⟩
  have hbits : n.log2 ≤ n'.log2 :=
    (Nat.le_log2 (hpos.trans_le hle).ne').mpr ((Nat.log2_self_le hpos.ne').trans hle)
  have hrounded : n.log2 = n'.log2 → a.roundedMantissa ≤ a'.roundedMantissa := fun hbits => by
    rw [Scaled, ← hbits] at ha'
    exact ha.roundedMantissa_mono ha' (by positivity) (Nat.mul_le_mul_right _ hle)
  obtain ⟨hge', hlt'⟩ := (Nat.log2_eq_iff hm'.ne').mp hlog'
  rcases hme with ⟨rfl, rfl⟩ | ⟨rfl, rfl, hfull⟩ <;>
    rcases hme' with ⟨rfl, rfl⟩ | ⟨rfl, rfl, hfull'⟩ <;> omega

/-! ## Quotients of counts -/

theorem isNumber_ofNat_div (hk : 0 < k) (hk' : k < 2 ^ 64) (hn : 0 < n) (hn' : n < 2 ^ 64) :
    IsNumber (Float.ofNat k / Float.ofNat n) := by
  obtain ⟨m, e, hm, -, -, -, hunpack, -⟩ := unpack_ofNat_mono hk le_rfl hk'
  obtain ⟨m', e', hm', -, -, -, hunpack', -⟩ := unpack_ofNat_mono hn le_rfl hn'
  have hdiv : UnpackedFloat.div Format.binary64 (Float.ofNat k).toModel.unpack
      (Float.ofNat n).toModel.unpack ≠ .notANumber := by
    rw [hunpack, hunpack']
    exact roundWithAccuracy_ne_notANumber
  exact unpack_pack_ne_notANumber hdiv

theorem atMostOne_ofNat_div (hle : k ≤ n) (hpos : 0 < n) (hn : n < 2 ^ 64) :
    AtMostOne (.div Format.binary64 (Float.ofNat k).toModel.unpack
      (Float.ofNat n).toModel.unpack) := by
  rcases Nat.eq_zero_or_pos k with rfl | hk
  · obtain ⟨m, e, hm, -, -, -, hunpack, -⟩ := unpack_ofNat_mono hpos le_rfl hn
    have hzero : (Float.ofNat 0).toModel.unpack = .zero .positive := rfl
    rw [hzero, hunpack]
    exact .zero
  · obtain ⟨m, e, hm, m', e', hm', hunpack, hunpack', hlog, hlog', hlt⟩ :=
      unpack_ofNat_mono hk hle hn
    rw [hunpack, hunpack']
    exact atMostOne_div hlog hlog' hm hm' hlt

/-- The quotient of two counts of which the former is no greater lies between zero and one. -/
theorem ofNat_div_mem (hle : k ≤ n) (hpos : 0 < n) (hn : n < 2 ^ 64) :
    0 ≤ Float.ofNat k / Float.ofNat n ∧ Float.ofNat k / Float.ofNat n ≤ 1 := by
  have hdiv := atMostOne_ofNat_div hle hpos hn
  have hnumber : IsNumber (Float.ofNat k / Float.ofNat n) :=
    unpack_pack_ne_notANumber hdiv.ne_notANumber
  have hplus : IsPlus (Float.ofNat k / Float.ofNat n) := isPlus_div (isPlus_ofNat k) (isPlus_ofNat n)
  exact ⟨nonneg_of_notBelowZero (.unsigned hplus) hnumber,
    le_iff.mpr ⟨hnumber, isNumber_of_isFinite rfl, hdiv.rank_pack_le⟩⟩

end Double

end TraceRecovery
