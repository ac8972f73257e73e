import TraceRecovery.Proofs.Double.Nearest

/-!
# Numbers up to rounding

Two numbers from zero on are close up to some roundings if neither exceeds the other by more than
that many relative errors, and by an absolute error that stands for underflows (`Double.Close`). The
relation is symmetric and composes along sums, quotients and further roundings, so that the error of
a computation is that of its steps.
-/

namespace TraceRecovery

namespace Double

/-- What is left of a number after as great an error of rounding as there is. -/
def kept : ℚ := 1 - roundoff

theorem kept_pos : 0 < kept := by norm_num [kept, roundoff]

theorem kept_le_one : kept ≤ 1 := by norm_num [kept, roundoff]

theorem kept_pow_le_one (n : ℕ) : kept ^ n ≤ 1 := pow_le_one₀ kept_pos.le kept_le_one

/-- The same number up to `n` roundings and the absolute error `δ`. -/
structure Close (n : ℕ) (δ x y : ℚ) : Prop where
  le : kept ^ n * x ≤ y + δ
  ge : kept ^ n * y ≤ x + δ

namespace Close

variable {n n' : ℕ} {δ δ' x y z a b : ℚ}

theorem refl (x : ℚ) : Close 0 0 x x := by
  constructor <;> simp

theorem mono (h : Close n δ x y) (hx : 0 ≤ x) (hy : 0 ≤ y) (hn : n ≤ n') (hδ : δ ≤ δ') :
    Close n' δ' x y := by
  have hpow : kept ^ n' ≤ kept ^ n := pow_le_pow_of_le_one kept_pos.le kept_le_one hn
  refine ⟨?_, ?_⟩
  · exact (mul_le_mul_of_nonneg_right hpow hx).trans (h.le.trans (add_le_add_right hδ y))
  · exact (mul_le_mul_of_nonneg_right hpow hy).trans (h.ge.trans (add_le_add_right hδ x))

/-- A number that has an absolute error keeps at most that error in further roundings. -/
theorem scale (hδ : 0 ≤ δ) (n : ℕ) (h : x ≤ y + δ) : kept ^ n * x ≤ kept ^ n * y + δ := by
  have hpow := kept_pow_le_one n
  calc kept ^ n * x ≤ kept ^ n * (y + δ) :=
        mul_le_mul_of_nonneg_left h (pow_nonneg kept_pos.le n)
    _ = kept ^ n * y + kept ^ n * δ := by ring
    _ ≤ kept ^ n * y + δ := by linarith [mul_le_mul_of_nonneg_right hpow hδ]

theorem trans (h : Close n δ x y) (h' : Close n' δ' y z) (hδ : 0 ≤ δ) (hδ' : 0 ≤ δ') :
    Close (n + n') (δ + δ') x z := by
  refine ⟨?_, ?_⟩
  · have hstep := scale hδ n' h.le
    rw [← mul_assoc, ← pow_add, Nat.add_comm] at hstep
    linarith [h'.le]
  · have hstep := scale hδ' n h'.ge
    rw [← mul_assoc, ← pow_add] at hstep
    linarith [h.ge]

theorem add (h : Close n δ x y) (h' : Close n δ' a b) : Close n (δ + δ') (x + a) (y + b) := by
  refine ⟨?_, ?_⟩
  · linarith [h.le, h'.le]
  · linarith [h.ge, h'.ge]

theorem div (h : Close n δ x y) (h' : Close n' 0 a b) (hδ : 0 ≤ δ) (hx : 0 ≤ x) (hy : 0 ≤ y)
    (ha : 0 < a) (hb : 0 < b) : Close (n + n') (δ / a) (x / a) (y / b) := by
  have hle := h'.le
  have hge := h'.ge
  rw [add_zero] at hle hge
  refine ⟨?_, ?_⟩
  · -- The divisor grows by at most `n'` errors, so that as many are left of the quotient.
    have hstep := scale hδ n' h.le
    rw [← mul_assoc, ← pow_add, Nat.add_comm] at hstep
    have hquotient : kept ^ n' * y / a ≤ y / b := by
      rw [div_le_div_iff₀ ha hb]
      linarith [mul_le_mul_of_nonneg_right hge hy]
    calc kept ^ (n + n') * (x / a) = kept ^ (n + n') * x / a := by ring
      _ ≤ (kept ^ n' * y + δ) / a := by gcongr
      _ = kept ^ n' * y / a + δ / a := by ring
      _ ≤ y / b + δ / a := by linarith
  · have hquotient : kept ^ n' / b ≤ 1 / a := by
      rw [div_le_div_iff₀ hb ha]
      linarith
    calc kept ^ (n + n') * (y / b) = kept ^ n * y * (kept ^ n' / b) := by
          rw [pow_add]
          ring
      _ ≤ (x + δ) * (1 / a) := by
          refine mul_le_mul h.ge hquotient ?_ (by positivity)
          exact div_nonneg (pow_nonneg kept_pos.le n') hb.le
      _ = x / a + δ / a := by ring

theorem listSum {α : Type*} {es : List α} {f g : α → ℚ} (h : ∀ e ∈ es, Close n δ (f e) (g e)) :
    Close n (es.length * δ) (es.map f).sum (es.map g).sum := by
  induction es with
  | nil => constructor <;> simp
  | cons e es ih =>
    obtain ⟨he, hes⟩ := List.forall_mem_cons.mp h
    have hδ : ((e :: es).length : ℚ) * δ = δ + es.length * δ := by
      rw [List.length_cons]
      push_cast
      ring
    rw [List.map_cons, List.map_cons, List.sum_cons, List.sum_cons, hδ]
    exact he.add (ih hes)

/-- A number of at most one can be cut off at one. -/
theorem min_one (h : Close n δ x y) (hx : 0 ≤ x) (hx' : x ≤ 1) (hδ : 0 ≤ δ) :
    Close n δ x (min y 1) := by
  have hpow := kept_pow_le_one n
  rcases min_cases y 1 with ⟨hmin, -⟩ | ⟨hmin, hlt⟩
  · rwa [hmin]
  · rw [hmin]
    refine ⟨?_, ?_⟩
    · linarith [mul_le_of_le_one_left hx hpow]
    · exact (mul_le_mul_of_nonneg_left hlt.le (pow_nonneg kept_pos.le n)).trans h.ge

end Close

/-- Between two bounds up to `n` roundings and the absolute error `δ`. -/
structure Between (n : ℕ) (δ lower upper x : ℚ) : Prop where
  le : kept ^ n * lower ≤ x + δ
  ge : kept ^ n * x ≤ upper + δ

theorem Close.between {n : ℕ} {δ x y lower upper : ℚ} (h : Close n δ x y) (hl : lower ≤ x)
    (hu : x ≤ upper) : Between n δ lower upper y :=
  ⟨(mul_le_mul_of_nonneg_left hl (pow_nonneg kept_pos.le n)).trans h.le,
    h.ge.trans (add_le_add_left hu δ)⟩

/-! ## Rounding -/

variable {x δ : ℚ}

theorem close_of_abs_sub_le {y : ℚ} (hx : 0 ≤ x) (hδ : 0 ≤ δ)
    (h : |y - x| ≤ roundoff * x + δ) : Close 1 δ x y := by
  obtain ⟨hlow, hhigh⟩ := abs_le.mp h
  refine ⟨?_, ?_⟩
  · rw [pow_one, kept]
    linarith
  · have hstep := Close.scale hδ 1 (show y ≤ (1 + roundoff) * x + δ by linarith)
    have hsquare : kept * ((1 + roundoff) * x) ≤ x := by
      have hpos := mul_nonneg (mul_nonneg roundoff_pos.le roundoff_pos.le) hx
      rw [kept]
      linarith
    rw [pow_one] at hstep ⊢
    linarith

theorem close_nearest (hx : 0 ≤ x) : Close 1 underflow x (nearest x) :=
  close_of_abs_sub_le hx underflow_pos.le (abs_nearest_sub_le hx)

/-- Without an underflow the error is relative only. -/
theorem close_nearest_of_multiple {k : ℤ} (hx : 0 ≤ x) (h : x = k * 2 ^ (-1074 : ℤ)) :
    Close 1 0 x (nearest x) :=
  close_of_abs_sub_le hx le_rfl (by simpa using abs_nearest_sub_le_of_multiple hx h)

theorem close_nearest_natCast (n : ℕ) : Close 1 0 n (nearest n) := by
  have hmultiple := div_eq_intCast (show (-1074 : ℤ) ≤ 0 by decide) n
  rw [div_eq_iff (two_zpow_pos _).ne', zpow_zero, mul_one, Int.cast_natCast] at hmultiple
  exact close_nearest_of_multiple n.cast_nonneg hmultiple

end Double

end TraceRecovery
