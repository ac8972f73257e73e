import TraceRecovery.Proofs.Double.Sum

/-!
# Quotients of counts

The quotient of two counts is computed with three roundings, of which those of the counts do nothing
up to `2 ^ 53` (`Double.value_ofNat_div`). Rounding is monotone, so such quotients are ordered as
those of the counts are: a greater dividend gives no less (`Double.ofNat_div_mono`), a positive one
something above zero (`Double.ofNat_div_pos`), and one that is not below the divisor at least one
(`Double.one_le_ofNat_div`).
-/

namespace TraceRecovery

namespace Double

variable {k k' n : ℕ}

/-! ## Counts -/

theorem nearest_one : nearest 1 = 1 := by
  simpa [value_one] using isAmount_one.nearest_value

/-- Counts of at most 53 bits are doubles. -/
theorem nearest_natCast (h : n ≤ 2 ^ 53) : nearest n = n := by
  rcases h.lt_or_eq with hlt | rfl
  · simpa using nearest_of_double (e := 0) hlt (by decide)
  · rw [Nat.cast_pow, Nat.cast_ofNat]
    simpa using nearest_of_double (m := 1) (e := 53) (by decide) (by decide)

theorem nearest_natCast_le (hn : n < 2 ^ 64) : nearest n ≤ 2 ^ 64 := by
  have hpow : nearest (2 ^ 64) = 2 ^ 64 := by
    simpa using nearest_of_double (m := 1) (e := 64) (by decide) (by decide)
  exact hpow ▸ nearest_mono n.cast_nonneg (by exact_mod_cast hn.le)

/-- A count is at least one after rounding, and an amount. -/
theorem ofNat_spec (hpos : 0 < n) (hn : n < 2 ^ 64) :
    IsAmount (Float.ofNat n) ∧ value (Float.ofNat n) = nearest n ∧ 1 ≤ nearest n := by
  have hround := rounds_ofNat hn
  have hamount := hround.isAmount
    ((nearest_natCast_le hn).trans_lt (pow_lt_pow_right₀ one_lt_two (by decide)))
  refine ⟨hamount, hround.value_eq hamount.isFinite, ?_⟩
  exact nearest_one ▸ nearest_mono zero_le_one (by exact_mod_cast hpos)

/-! ## Quotients -/

/-- The quotient of two counts is rounded, as they are. -/
theorem ofNat_div_spec (hk : k < 2 ^ 64) (hpos : 0 < n) (hn : n < 2 ^ 64) :
    IsAmount (Float.ofNat k / Float.ofNat n) ∧
      value (Float.ofNat k / Float.ofNat n) = nearest (nearest k / nearest n) := by
  obtain ⟨hy, hvalue, hone⟩ := ofNat_spec hpos hn
  have hround := rounds_ofNat hk
  have hbound : (2 : ℚ) ^ 64 < 2 ^ 1024 := pow_lt_pow_right₀ one_lt_two (by decide)
  have hx := hround.isAmount ((nearest_natCast_le hk).trans_lt hbound)
  have hypos : 0 < Float.ofNat n := (value_pos_iff hy).mp (hvalue ▸ zero_lt_one.trans_le hone)
  have hdiv := rounds_div hx hy hypos
  have hfinite : nearest (value (Float.ofNat k) / value (Float.ofNat n)) < 2 ^ 1024 := by
    refine lt_of_le_of_lt ?_ hx.value_lt
    refine (nearest_mono (div_nonneg hx.value_nonneg hy.value_nonneg) ?_).trans hx.nearest_value.le
    exact div_le_self hx.value_nonneg (hvalue ▸ hone)
  have hamount := hdiv.isAmount hfinite
  rw [hdiv.value_eq hamount.isFinite, hround.value_eq hx.isFinite, hvalue]
  exact ⟨hamount, rfl⟩

theorem value_ofNat_div (hk : k ≤ 2 ^ 53) (hpos : 0 < n) (hn : n ≤ 2 ^ 53) :
    value (Float.ofNat k / Float.ofNat n) = nearest (k / n) := by
  rw [(ofNat_div_spec (by omega) hpos (by omega)).2, nearest_natCast hk, nearest_natCast hn]

theorem ofNat_div_mono (h : k ≤ k') (hk' : k' < 2 ^ 64) (hpos : 0 < n) (hn : n < 2 ^ 64) :
    Float.ofNat k / Float.ofNat n ≤ Float.ofNat k' / Float.ofNat n := by
  obtain ⟨hx, hvalue⟩ := ofNat_div_spec (h.trans_lt hk') hpos hn
  obtain ⟨hx', hvalue'⟩ := ofNat_div_spec hk' hpos hn
  have hdivisor := nearest_nonneg (n.cast_nonneg : (0 : ℚ) ≤ n)
  have hdividend := nearest_mono k.cast_nonneg (show (k : ℚ) ≤ k' by exact_mod_cast h)
  rw [← value_le_iff hx hx', hvalue, hvalue']
  refine nearest_mono (div_nonneg (nearest_nonneg k.cast_nonneg) hdivisor) ?_
  exact div_le_div_of_nonneg_right hdividend hdivisor

theorem one_le_ofNat_div (h : n ≤ k) (hk : k < 2 ^ 64) (hpos : 0 < n) :
    1 ≤ Float.ofNat k / Float.ofNat n := by
  obtain ⟨hx, hvalue⟩ := ofNat_div_spec hk hpos (h.trans_lt hk)
  have hdivisor := zero_lt_one.trans_le (ofNat_spec hpos (h.trans_lt hk)).2.2
  rw [← value_le_iff isAmount_one hx, value_one, hvalue, ← nearest_one]
  refine nearest_mono zero_le_one ((one_le_div hdivisor).mpr ?_)
  exact nearest_mono n.cast_nonneg (by exact_mod_cast h)

/-- A share of something is not rounded to zero. -/
theorem ofNat_div_pos (hk : 0 < k) (hk' : k < 2 ^ 64) (hpos : 0 < n) (hn : n < 2 ^ 64) :
    0 < Float.ofNat k / Float.ofNat n := by
  obtain ⟨hx, hvalue⟩ := ofNat_div_spec hk' hpos hn
  have hdivisor := zero_lt_one.trans_le (ofNat_spec hpos hn).2.2
  -- No quotient of such counts is below this double.
  have hleast : nearest (2 ^ (-64 : ℤ)) = 2 ^ (-64 : ℤ) := by
    simpa using nearest_of_double (m := 1) (e := -64) (by decide) (by decide)
  have hquotient : (2 : ℚ) ^ (-64 : ℤ) ≤ nearest k / nearest n := by
    rw [le_div_iff₀ hdivisor, zpow_neg, zpow_ofNat]
    calc ((2 : ℚ) ^ 64)⁻¹ * nearest n ≤ (2 ^ 64)⁻¹ * 2 ^ 64 :=
          mul_le_mul_of_nonneg_left (nearest_natCast_le hn) (by positivity)
      _ = 1 := inv_mul_cancel₀ (by positivity)
      _ ≤ nearest k := (ofNat_spec hk hk').2.2
  rw [← value_pos_iff hx, hvalue]
  exact (two_zpow_pos _).trans_le (hleast ▸ nearest_mono (two_zpow_pos _).le hquotient)

/-- Only a share of nothing is zero. -/
theorem ofNat_div_beq_zero_iff (hk : k < 2 ^ 64) (hpos : 0 < n) (hn : n < 2 ^ 64) :
    (Float.ofNat k / Float.ofNat n == 0) = true ↔ k = 0 := by
  obtain ⟨hx, hvalue⟩ := ofNat_div_spec hk hpos hn
  rw [beq_iff]
  constructor
  · rintro ⟨-, -, hplace⟩
    by_contra hne
    have hlt := (lt_iff.mp (ofNat_div_pos (Nat.pos_of_ne_zero hne) hk hpos hn)).2.2
    exact hlt.ne' hplace
  · rintro rfl
    have hle : Float.ofNat 0 / Float.ofNat n ≤ 0 := by
      rw [← value_le_iff hx isAmount_zero, hvalue, value_zero]
      simp
    have hnumber := isNumber_of_le hle
    exact ⟨hnumber.1, hnumber.2, (le_iff.mp hle).2.2.antisymm (le_iff.mp hx.nonneg).2.2⟩

/-! ## Shares -/

/-- The share that one count makes up of another, at most one, as it is computed: the double nearest
to the quotient, unless the counts are so great that they have to be rounded themselves. -/
structure IsShare (k n : ℕ) (v : Float) : Prop where
  eq_div : k ≤ n → v = Float.ofNat k / Float.ofNat n
  eq_one : n ≤ k → v = 1
  nearest_eq : k ≤ 2 ^ 53 → n ≤ 2 ^ 53 → value v = nearest (min (k / n) 1)

theorem isShare_of_eq {v : Float} (hpos : 0 < n) (hdiv : k ≤ n → v = Float.ofNat k / Float.ofNat n)
    (hone : n ≤ k → v = 1) : IsShare k n v := by
  have hcast : (0 : ℚ) < n := by exact_mod_cast hpos
  refine ⟨hdiv, hone, fun hk hn => ?_⟩
  rcases Nat.le_total k n with h | h
  · rw [hdiv h, value_ofNat_div hk hpos hn, min_eq_left]
    exact (div_le_one hcast).mpr (by exact_mod_cast h)
  · rw [hone h, value_one, min_eq_right, nearest_one]
    exact (one_le_div hcast).mpr (by exact_mod_cast h)

theorem eq_one_of_ofNat_div (h : n ≤ k) (hk : k < 2 ^ 64) (hpos : 0 < n)
    (hle : Float.ofNat k / Float.ofNat n ≤ 1) : Float.ofNat k / Float.ofNat n = 1 := by
  have hplace := (le_iff.mp hle).2.2.antisymm (le_iff.mp (one_le_ofNat_div h hk hpos)).2.2
  exact eq_of_place_eq (isPlus_div (isPlus_ofNat k) (isPlus_ofNat n)) isPlus_one
    (isNumber_of_le hle).1 (isNumber_of_le hle).2 hplace

theorem isShare_ofNat_div (h : k ≤ n) (hpos : 0 < n) (hn : n < 2 ^ 64) :
    IsShare k n (Float.ofNat k / Float.ofNat n) := by
  refine isShare_of_eq hpos (fun _ => rfl) fun hle => ?_
  obtain rfl := h.antisymm hle
  exact eq_one_of_ofNat_div le_rfl hn hpos (ofNat_div_mem le_rfl hpos hn).2

theorem isShare_one (h : n ≤ k) (hk : k < 2 ^ 64) (hpos : 0 < n) : IsShare k n 1 := by
  refine isShare_of_eq hpos (fun hle => ?_) fun _ => rfl
  obtain rfl := h.antisymm hle
  exact (eq_one_of_ofNat_div le_rfl hk hpos (ofNat_div_mem le_rfl hpos hk).2).symm

theorem IsShare.unique {v w : Float} (h : IsShare k n v) (h' : IsShare k n w) : v = w := by
  rcases Nat.le_total k n with hle | hle
  · rw [h.eq_div hle, h'.eq_div hle]
  · rw [h.eq_one hle, h'.eq_one hle]

theorem IsShare.pos {v : Float} (h : IsShare k n v) (hk : 0 < k) (hk' : k < 2 ^ 64) (hpos : 0 < n)
    (hn : n < 2 ^ 64) : 0 < v := by
  rcases Nat.le_total k n with hle | hle
  · rw [h.eq_div hle]
    exact ofNat_div_pos hk hk' hpos hn
  · rw [h.eq_one hle]
    decide

end Double

end TraceRecovery
