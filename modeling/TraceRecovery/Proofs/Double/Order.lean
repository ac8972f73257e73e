import Mathlib

/-!
# The order of doubles

Doubles are compared by their sign, then by their exponent, then by their mantissa. So there is a
place in a linear order for each double (`Double.place`), and among those that are numbers one is
below another exactly if its place is (`Double.lt_iff`, `Double.le_iff`). The two zeros share a
place; no other two numbers do.
-/

namespace TraceRecovery

namespace Double

open Float.Model (UnpackedFloat)

/-- The sign, the exponent and the mantissa, in this order of importance. What is no number gets
the place of zero, to which it is never compared. -/
def rank : UnpackedFloat → ℤ ×ₗ ℤ ×ₗ ℤ
  | .infinity s => toLex (s.apply 2, toLex (0, 0))
  | .finite s m e _ => toLex (s.apply 1, toLex (s.apply e, s.apply m))
  | .zero _ | .notANumber => toLex (0, toLex (0, 0))

theorem compare_eq_lt_iff {a b : UnpackedFloat} :
    a.compare b = some .lt ↔ a ≠ .notANumber ∧ b ≠ .notANumber ∧ rank a < rank b := by
  rcases a with (_ | _) | _ | (_ | _) | ⟨_ | _, m, e, _⟩ <;>
  rcases b with (_ | _) | _ | (_ | _) | ⟨_ | _, m', e', _⟩ <;>
    simp [UnpackedFloat.compare, rank, Prod.Lex.toLex_lt_toLex, Ordering.then_eq_lt,
      Ordering.then_eq_gt, compare_gt_iff_gt, UnpackedFloat.Sign.apply]
  case infinity.negative.infinity.positive => decide
  case finite.positive.finite.positive => rw [compare_lt_iff_lt, compare_lt_iff_lt]

theorem compare_eq_eq_iff {a b : UnpackedFloat} :
    a.compare b = some .eq ↔ a ≠ .notANumber ∧ b ≠ .notANumber ∧ rank a = rank b := by
  rcases a with (_ | _) | _ | (_ | _) | ⟨_ | _, m, e, _⟩ <;>
  rcases b with (_ | _) | _ | (_ | _) | ⟨_ | _, m', e', _⟩ <;>
    simp [UnpackedFloat.compare, rank, Ordering.then_eq_eq, UnpackedFloat.Sign.apply]
  case infinity.negative.infinity.negative => decide
  case infinity.positive.infinity.positive => decide

/-- Whether a double is a number, which may be infinite. -/
def IsNumber (x : Float) : Prop := x.toModel.unpack ≠ .notANumber

/-- The place of a double in the order of numbers. -/
def place (x : Float) : ℤ ×ₗ ℤ ×ₗ ℤ := rank x.toModel.unpack

variable {x y : Float}

theorem lt_iff : x < y ↔ IsNumber x ∧ IsNumber y ∧ place x < place y := by
  have hlt : x < y ↔ x.toModel.unpack.lt y.toModel.unpack = true := by
    show decide (x.toModel < y.toModel) = true ↔ _
    exact decide_eq_true_iff
  rw [hlt, UnpackedFloat.lt, beq_iff_eq, compare_eq_lt_iff]
  rfl

theorem le_iff : x ≤ y ↔ IsNumber x ∧ IsNumber y ∧ place x ≤ place y := by
  have hle : x ≤ y ↔ x.toModel.unpack.le y.toModel.unpack = true := by
    show decide (x.toModel ≤ y.toModel) = true ↔ _
    exact decide_eq_true_iff
  have hcases : x.toModel.unpack.le y.toModel.unpack = true ↔
      x.toModel.unpack.compare y.toModel.unpack = some .lt ∨
        x.toModel.unpack.compare y.toModel.unpack = some .eq := by
    rw [UnpackedFloat.le]
    rcases x.toModel.unpack.compare y.toModel.unpack with _ | _ | _ | _ <;> simp
  rw [hle, hcases, compare_eq_lt_iff, compare_eq_eq_iff, ← and_or_left, ← and_or_left,
    ← le_iff_lt_or_eq]
  rfl

theorem isNumber_of_le (h : x ≤ y) : IsNumber x ∧ IsNumber y := ⟨(le_iff.mp h).1, (le_iff.mp h).2.1⟩

theorem le_trans {z : Float} (hxy : x ≤ y) (hyz : y ≤ z) : x ≤ z :=
  le_iff.mpr ⟨(isNumber_of_le hxy).1, (isNumber_of_le hyz).2,
    (le_iff.mp hxy).2.2.trans (le_iff.mp hyz).2.2⟩

theorem not_lt_iff (hx : IsNumber x) (hy : IsNumber y) : ¬ x < y ↔ y ≤ x := by
  simp [lt_iff, le_iff, hx, hy]

theorem isNumber_of_isFinite (h : x.isFinite = true) : IsNumber x := by
  intro hx
  have hfinite : x.toModel.unpack.isFinite = true := h
  rw [hx] at hfinite
  cases hfinite

/-- Numbers that are not below each other are equal, or are the two zeros. -/
theorem beq_iff : (x == y) = true ↔ IsNumber x ∧ IsNumber y ∧ place x = place y := by
  show x.toModel.unpack.beq y.toModel.unpack = true ↔ _
  rw [UnpackedFloat.beq, beq_iff_eq, compare_eq_eq_iff]
  rfl

end Double

end TraceRecovery
