import TraceRecovery.Proofs.Double.Packing

/-!
# Rounding doubles

Before a number is packed, its mantissa is shifted until it has no more bits than that of a double,
with two further bits for what has been shifted out (`Double.Represents`). It is then rounded, and
shifted again if rounding has used up another bit (`Double.roundWithAccuracy_eq`).

* `Double.roundWithAccuracy_exact`: zeros at the end of a mantissa do not matter;
* `Double.Represents.roundedMantissa_mono`: a greater quotient is rounded to no smaller mantissa;
* `Double.atMostOne_div`: the quotient of a number by one that is no smaller is at most one.
-/

namespace TraceRecovery

namespace Double

open Float.Model (UnpackedFloat Format totalExponent)
open Float.Model.UnpackedFloat (Sign Accuracy ExtendedMantissa accuracyOfFraction
  shiftToTargetExponent roundWithAccuracy)

variable {u : UnpackedFloat} {a : ExtendedMantissa} {acc : Accuracy} {s : Sign} {m n d M : ℕ}
  {e : ℤ}

/-! ## Remainders -/

/-- A mantissa with its two further bits is the quotient `n / d` rounded down: the bits tell the
remainder from none, from less than a half, from a half and from more. -/
def Represents (a : ExtendedMantissa) (n d : ℕ) : Prop :=
  match a.roundBit, a.stickyBit with
  | false, false => n = a.mantissa * d
  | false, true => a.mantissa * d < n ∧ 2 * n < (2 * a.mantissa + 1) * d
  | true, false => 2 * n = (2 * a.mantissa + 1) * d
  | true, true => (2 * a.mantissa + 1) * d < 2 * n ∧ n < (a.mantissa + 1) * d

theorem represents_exact (m : ℕ) : Represents (.ofMantissaAndAccuracy m .exact) m 1 :=
  (Nat.mul_one m).symm

theorem represents_fraction (hd : 0 < d) :
    Represents (.ofMantissaAndAccuracy (n / d) (accuracyOfFraction (n % d) d)) n d := by
  have hdiv := Nat.div_add_mod n d
  have hlt := Nat.mod_lt n hd
  rw [Nat.mul_comm] at hdiv
  unfold accuracyOfFraction
  split
  · show n = n / d * d
    omega
  · cases hc : compare (2 * (n % d)) d with
    | lt =>
      rw [compare_lt_iff_lt] at hc
      refine ⟨?_, ?_⟩
      · show n / d * d < n
        omega
      · show 2 * n < (2 * (n / d) + 1) * d
        rw [Nat.add_mul, Nat.mul_assoc]
        omega
    | eq =>
      rw [compare_eq_iff_eq] at hc
      show 2 * n = (2 * (n / d) + 1) * d
      rw [Nat.add_mul, Nat.mul_assoc]
      omega
    | gt =>
      rw [compare_gt_iff_gt] at hc
      refine ⟨?_, ?_⟩
      · show (2 * (n / d) + 1) * d < 2 * n
        rw [Nat.add_mul, Nat.mul_assoc]
        omega
      · show n < (n / d + 1) * d
        rw [Nat.add_mul]
        omega

theorem Represents.shiftRightOne (h : Represents a n d) (hd : 0 < d) :
    Represents a.shiftRightOne n (d * 2) := by
  obtain ⟨m, r, t⟩ := a
  obtain ⟨q, rfl | rfl⟩ := Nat.even_or_odd' m
  · have hshift : ExtendedMantissa.shiftRightOne ⟨2 * q, r, t⟩ = ⟨q, false, r || t⟩ := by
      simp [ExtendedMantissa.shiftRightOne]
    rw [hshift]
    cases r <;> cases t <;> simp only [Represents, Bool.or_false, Bool.or_true] at h ⊢
    case false.false => linarith
    all_goals constructor <;> linarith
  · have hshift : ExtendedMantissa.shiftRightOne ⟨2 * q + 1, r, t⟩ = ⟨q, true, r || t⟩ := by
      simp [ExtendedMantissa.shiftRightOne, Nat.add_mod]
      omega
    rw [hshift]
    cases r <;> cases t <;> simp only [Represents, Bool.or_false, Bool.or_true] at h ⊢
    case false.false => linarith
    all_goals constructor <;> linarith

theorem Represents.shiftRight (h : Represents a n d) (hd : 0 < d) (k : ℕ) :
    Represents (a >>> k) n (d * 2 ^ k) := by
  show Represents (k.repeat ExtendedMantissa.shiftRightOne a) n (d * 2 ^ k)
  induction k with
  | zero => rwa [Nat.pow_zero, Nat.mul_one]
  | succ k ih =>
    rw [Nat.repeat, Nat.pow_succ, ← Nat.mul_assoc]
    exact ih.shiftRightOne (by positivity)

theorem Represents.mantissa_mul_le (h : Represents a n d) : a.mantissa * d ≤ n := by
  obtain ⟨m, r, t⟩ := a
  cases r <;> cases t <;> simp only [Represents] at h ⊢
  case false.false => exact h.ge
  case false.true => exact h.1.le
  all_goals linarith

/-- A quotient of at most a whole number is rounded to at most that number. -/
theorem Represents.roundedMantissa_le (h : Represents a n d) (hd : 0 < d) (hM : n ≤ M * d) :
    a.roundedMantissa ≤ M := by
  obtain ⟨m, r, t⟩ := a
  have hle : m ≤ M := Nat.le_of_mul_le_mul_right (h.mantissa_mul_le.trans hM) hd
  rcases hle.lt_or_eq with hlt | rfl
  · cases r <;> cases t <;>
      simp only [ExtendedMantissa.roundedMantissa, ExtendedMantissa.accuracy,
        Accuracy.roundToNearestEven] <;> omega
  · cases r <;> cases t <;> simp only [Represents] at h
    case false.false => exact Nat.le_refl _
    case false.true => exact absurd hM (by omega)
    all_goals exact absurd hM (by linarith)

/-- A quotient is rounded to at least the whole numbers that it exceeds. -/
theorem Represents.le_roundedMantissa (h : Represents a n d) (hd : 0 < d) (hM : M * d ≤ n) :
    M ≤ a.roundedMantissa := by
  obtain ⟨m, r, t⟩ := a
  have hlt : M < m + 1 := by
    refine Nat.lt_of_mul_lt_mul_right (a := d) (hM.trans_lt ?_)
    cases r <;> cases t <;> simp only [Represents] at h <;> linarith
  cases r <;> cases t <;>
    simp only [ExtendedMantissa.roundedMantissa, ExtendedMantissa.accuracy,
      Accuracy.roundToNearestEven] <;> omega

/-- Rounding is monotone. -/
theorem Represents.roundedMantissa_mono {b : ExtendedMantissa} {n' : ℕ} (h : Represents a n d)
    (h' : Represents b n' d) (hd : 0 < d) (hle : n ≤ n') :
    a.roundedMantissa ≤ b.roundedMantissa := by
  obtain ⟨m, r, t⟩ := a
  obtain ⟨m', r', t'⟩ := b
  have hlt : m < m' + 1 := by
    refine Nat.lt_of_mul_lt_mul_right (a := d) ((h.mantissa_mul_le.trans hle).trans_lt ?_)
    cases r' <;> cases t' <;> simp only [Represents] at h' <;> linarith
  rcases (Nat.lt_succ_iff.mp hlt).lt_or_eq with hlt | rfl
  · cases r <;> cases t <;> cases r' <;> cases t' <;>
      simp only [ExtendedMantissa.roundedMantissa, ExtendedMantissa.accuracy,
        Accuracy.roundToNearestEven] <;> omega
  · cases r <;> cases t <;> cases r' <;> cases t' <;>
      simp only [Represents, ExtendedMantissa.roundedMantissa, ExtendedMantissa.accuracy,
        Accuracy.roundToNearestEven] at h h' ⊢ <;> first | omega | (exfalso; linarith)

/-- A whole number leaves no remainder. -/
theorem Represents.eq_of_mul (h : Represents a (m * d) d) (hd : 0 < d) : a = ⟨m, false, false⟩ := by
  obtain ⟨m', r, t⟩ := a
  cases r <;> cases t <;> simp only [Represents, ← Nat.mul_assoc] at h
  case false.false =>
    obtain rfl := Nat.eq_of_mul_eq_mul_right hd h
    rfl
  case true.false =>
    have hm := Nat.eq_of_mul_eq_mul_right hd h
    omega
  all_goals
    have hlow := Nat.lt_of_mul_lt_mul_right h.1
    have hhigh := Nat.lt_of_mul_lt_mul_right h.2
    omega

/-! ## Rounding -/

theorem targetExponent_eq (m : ℕ) (e : ℤ) :
    Format.binary64.targetExponent (totalExponent m e) = max (m.log2 + e - 52) (-1074) := by
  show max ((m.log2 : ℤ) + 1 + e - 53) (3 - 1024 - 53) = _
  omega

/-- By how much a mantissa is shifted to have no more bits than a double has. -/
def excess (m : ℕ) (e : ℤ) : ℕ := (max ((m.log2 : ℤ) + e - 52) (-1074) - e).toNat

theorem shiftToTargetExponent_eq : shiftToTargetExponent Format.binary64 m e acc =
    (ExtendedMantissa.ofMantissaAndAccuracy m acc >>> excess m e, e + excess m e) := by
  rw [shiftToTargetExponent, targetExponent_eq]
  rfl

/-- A number whose mantissa has been shifted by its excess. -/
def shifted (s : Sign) (m : ℕ) (e : ℤ) : UnpackedFloat :=
  if h : (ExtendedMantissa.ofMantissaAndAccuracy m .exact >>> excess m e).mantissa = 0 then .zero s
  else .finite s (ExtendedMantissa.ofMantissaAndAccuracy m .exact >>> excess m e).mantissa
    (e + excess m e) (Nat.pos_of_ne_zero h)

/-- A number is shifted, rounded, and shifted again in case that rounding has used up another bit. -/
theorem roundWithAccuracy_eq : roundWithAccuracy Format.binary64 s m e acc =
    shifted s (ExtendedMantissa.ofMantissaAndAccuracy m acc >>> excess m e).roundedMantissa
      (e + excess m e) := by
  unfold roundWithAccuracy
  simp only [shiftToTargetExponent_eq]
  rfl

theorem roundWithAccuracy_ne_notANumber :
    roundWithAccuracy Format.binary64 s m e acc ≠ .notANumber := by
  rw [roundWithAccuracy_eq, shifted]
  split <;> exact nofun

theorem log2_mul_two_pow (hm : 0 < m) (j : ℕ) : (m * 2 ^ j).log2 = m.log2 + j := by
  obtain ⟨hle, hlt⟩ := (Nat.log2_eq_iff hm.ne').mp rfl
  refine (Nat.log2_eq_iff (by positivity)).mpr ⟨?_, ?_⟩
  · rw [Nat.pow_add]
    exact Nat.mul_le_mul_right _ hle
  · rw [Nat.add_right_comm, Nat.pow_add]
    exact Nat.mul_lt_mul_of_pos_right hlt (by positivity)

/-- Zeros at the end are shifted out, and nothing else. -/
theorem shift_exact (hlog : m.log2 = 52) (he : -1074 ≤ e) (hm : 0 < m) (j : ℕ) :
    excess (m * 2 ^ j) (e - j) = j ∧
      (ExtendedMantissa.ofMantissaAndAccuracy (m * 2 ^ j) .exact >>> j) = ⟨m, false, false⟩ := by
  refine ⟨?_, ?_⟩
  · rw [excess, log2_mul_two_pow hm, hlog]
    omega
  · have h := (represents_exact (m * 2 ^ j)).shiftRight Nat.one_pos j
    rw [Nat.one_mul] at h
    exact h.eq_of_mul (by positivity)

theorem shifted_exact (hlog : m.log2 = 52) (he : -1074 ≤ e) (hm : 0 < m) (j : ℕ) :
    shifted s (m * 2 ^ j) (e - j) = .finite s m e hm := by
  obtain ⟨hexcess, hmantissa⟩ := shift_exact hlog he hm j
  rw [shifted]
  simp only [hexcess, hmantissa, dif_neg hm.ne', Int.sub_add_cancel]

theorem shifted_full (hlog : m.log2 = 52) (he : -1074 ≤ e) (hm : 0 < m) :
    shifted s m e = .finite s m e hm := by
  simpa using shifted_exact (s := s) hlog he hm 0

/-- A number that has no more bits than a double, apart from zeros at the end, is not changed. -/
theorem roundWithAccuracy_exact (hlog : m.log2 = 52) (he : -1074 ≤ e) (hm : 0 < m) (j : ℕ) :
    roundWithAccuracy Format.binary64 s (m * 2 ^ j) (e - j) .exact = .finite s m e hm := by
  obtain ⟨hexcess, hmantissa⟩ := shift_exact hlog he hm j
  have hrounded : (⟨m, false, false⟩ : ExtendedMantissa).roundedMantissa = m := rfl
  rw [roundWithAccuracy_eq, hexcess, hmantissa, hrounded, Int.sub_add_cancel,
    shifted_full hlog he hm]

/-- A mantissa that fills the bits of a double stays as it is, and one that needs another bit after
rounding is halved. -/
theorem exists_shifted (hle : 2 ^ 52 ≤ n) (hle' : n ≤ 2 ^ 53) (he : -1074 ≤ e) :
    ∃ m e' hm, shifted s n e = .finite s m e' hm ∧ m.log2 = 52 ∧
      (e' = e ∧ m = n ∨ e' = e + 1 ∧ m = 2 ^ 52 ∧ n = 2 ^ 53) := by
  rcases hle'.lt_or_eq with hlt | rfl
  · have hlog : n.log2 = 52 := (Nat.log2_eq_iff (by omega)).mpr ⟨hle, by omega⟩
    exact ⟨n, e, by omega, shifted_full hlog he _, hlog, .inl ⟨rfl, rfl⟩⟩
  · have hhalf := shifted_exact (s := s) (m := 2 ^ 52) (e := e + 1) Nat.log2_two_pow (by omega)
      (by decide) 1
    rw [Nat.cast_one, Int.add_sub_cancel] at hhalf
    exact ⟨2 ^ 52, e + 1, _, hhalf, Nat.log2_two_pow, .inr ⟨rfl, rfl, rfl⟩⟩

/-! ## Numbers of at most one -/

/-- Zero, or a positive number of at most one whose exponent is none above that of one. -/
inductive AtMostOne : UnpackedFloat → Prop
  | zero : AtMostOne (.zero .positive)
  | finite {m : ℕ} {e : ℤ} (hm : 0 < m) : e ≤ -52 → m ≤ 2 ^ (-e).toNat →
      AtMostOne (.finite .positive m e hm)

@[simp] theorem mantissa_ofMantissaAndAccuracy :
    (ExtendedMantissa.ofMantissaAndAccuracy m acc).mantissa = m := by
  rcases acc with _ | _ | _ | _ <;> rfl

theorem Represents.shift_atMostOne (h : Represents (.ofMantissaAndAccuracy m acc) n d) (hd : 0 < d)
    (he : e ≤ -52) (hle : n ≤ 2 ^ (-e).toNat * d) :
    e + excess m e ≤ -52 ∧ n ≤ 2 ^ (-(e + excess m e)).toNat * (d * 2 ^ excess m e) := by
  have hm : m ≤ 2 ^ (-e).toNat := by
    have hmul := h.mantissa_mul_le
    rw [mantissa_ofMantissaAndAccuracy] at hmul
    exact Nat.le_of_mul_le_mul_right (hmul.trans hle) hd
  have hlog : m.log2 ≤ (-e).toNat := by
    rcases eq_or_ne m 0 with rfl | hne
    · exact Nat.zero_le _
    · exact (Nat.pow_le_pow_iff_right (by decide)).mp ((Nat.log2_self_le hne).trans hm)
  have hexp : e + excess m e ≤ -52 := by
    rw [excess]
    omega
  refine ⟨hexp, ?_⟩
  have hpow : (-e).toNat = (-(e + excess m e)).toNat + excess m e := by omega
  rw [hpow, Nat.pow_add] at hle
  linarith

theorem atMostOne_shifted (he : e ≤ -52) (hm : m ≤ 2 ^ (-e).toNat) :
    AtMostOne (shifted .positive m e) := by
  have hexact := represents_exact m
  obtain ⟨he', hle⟩ := hexact.shift_atMostOne Nat.one_pos he (by rwa [Nat.mul_one])
  have hmantissa := (hexact.shiftRight Nat.one_pos (excess m e)).mantissa_mul_le
  unfold shifted
  split
  · exact .zero
  · exact .finite _ he' (Nat.le_of_mul_le_mul_right (hmantissa.trans hle) (by positivity))

theorem atMostOne_roundWithAccuracy (h : Represents (.ofMantissaAndAccuracy m acc) n d) (hd : 0 < d)
    (he : e ≤ -52) (hle : n ≤ 2 ^ (-e).toNat * d) :
    AtMostOne (roundWithAccuracy Format.binary64 .positive m e acc) := by
  obtain ⟨he', hle'⟩ := h.shift_atMostOne hd he hle
  rw [roundWithAccuracy_eq]
  exact atMostOne_shifted he' ((h.shiftRight hd _).roundedMantissa_le (by positivity) hle')

theorem atMostOne_div {m' : ℕ} {e' : ℤ} (hm : m.log2 = 52) (hm' : m'.log2 = 52) (hpos : 0 < m)
    (hpos' : 0 < m') (hle : e < e' ∨ e = e' ∧ m ≤ m') :
    AtMostOne (.div Format.binary64 (.finite .positive m e hpos)
      (.finite .positive m' e' hpos')) := by
  obtain ⟨-, hlt⟩ := (Nat.log2_eq_iff hpos.ne').mp hm
  obtain ⟨hge', -⟩ := (Nat.log2_eq_iff hpos'.ne').mp hm'
  have htotal : totalExponent m e - totalExponent m' e' = e - e' := by
    rw [totalExponent, totalExponent, hm, hm']
    omega
  have htarget : Format.binary64.targetExponent (e - e') = max (e - e' - 53) (-1074) := rfl
  -- However far the first mantissa is shifted before it is divided, the quotient is at most one.
  have hround : ∀ (t : ℤ) (k : ℕ), t = e - e' - k → t ≤ -52 →
      AtMostOne (roundWithAccuracy Format.binary64 .positive (m <<< k / m') t
        (accuracyOfFraction (m <<< k % m') m')) := by
    intro t k ht hlow
    refine atMostOne_roundWithAccuracy (represents_fraction hpos') hpos' hlow ?_
    rw [Nat.shiftLeft_eq]
    rcases hle with hexp | ⟨rfl, hmantissa⟩
    · have hpow : 2 ^ (k + 1) ≤ 2 ^ (-t).toNat := Nat.pow_le_pow_right (by decide) (by omega)
      rw [Nat.pow_succ] at hpow
      calc m * 2 ^ k ≤ 2 * m' * 2 ^ k := Nat.mul_le_mul_right _ (by omega)
        _ = 2 ^ k * 2 * m' := by ring
        _ ≤ 2 ^ (-t).toNat * m' := Nat.mul_le_mul_right _ hpow
    · have hpow : (-t).toNat = k := by omega
      rw [hpow, Nat.mul_comm]
      exact Nat.mul_le_mul_left _ hmantissa
  have hdiv := hround (min (e - e') (Format.binary64.targetExponent (e - e')))
    (e - e' - min (e - e') (Format.binary64.targetExponent (e - e'))).toNat (by omega) (by omega)
  simp only [UnpackedFloat.div, UnpackedFloat.divCore, htotal]
  exact hdiv

theorem AtMostOne.ne_notANumber (h : AtMostOne u) : u ≠ .notANumber := by
  cases h <;> exact nofun

theorem AtMostOne.rank_pack_le (h : AtMostOne u) :
    rank (Float.Model.pack u).unpack ≤ place 1 := by
  have hone : place 1 = toLex (1, toLex (-52, 2 ^ 52)) := rfl
  rw [hone]
  cases h with
  | zero =>
    rw [unpack_pack_zero]
    decide
  | @finite m e hm he hle =>
    rw [unpack_pack_finite, if_neg (by omega)]
    split
    · refine Prod.Lex.toLex_le_toLex.mpr (.inr ⟨rfl, Prod.Lex.toLex_le_toLex.mpr ?_⟩)
      rcases he.lt_or_eq with hlt | rfl
      · exact .inl hlt
      · exact .inr ⟨rfl, Int.ofNat_le.mpr hle⟩
    · split
      · decide
      · exact Prod.Lex.toLex_le_toLex.mpr
          (.inr ⟨rfl, Prod.Lex.toLex_le_toLex.mpr (.inl (show (-1074 : ℤ) < -52 by decide))⟩)

end Double

end TraceRecovery
