import TraceRecovery.Proofs.Double.Order

/-!
# Doubles without a minus sign

Two numbers at the same place are equal unless they are the two zeros. So if no minus sign is
around, numbers at the same place are equal (`Double.eq_of_place_eq`), and a greatest number of
several does not depend on the order in which they are compared.

Scores have no minus sign: counts have none (`Double.isPlus_ofNat`), nor have quotients of numbers
without one (`Double.isPlus_div`), nor sums that begin with such a number and to which only numbers
from zero on are added (`Double.isPlus_add`, `Double.isPlus_add_mul`). The last holds of the
negative zero too, which a weight may be: it vanishes in a sum.
-/

namespace TraceRecovery

namespace Double

open Float.Model (UnpackedFloat Format)
open Float.Model.UnpackedFloat (Sign unpackSign unpackSign_packComponents)

/-- The sign is plus. What is no number has no sign. -/
inductive Unsigned : UnpackedFloat → Prop
  | notANumber : Unsigned .notANumber
  | infinity : Unsigned (.infinity .positive)
  | zero : Unsigned (.zero .positive)
  | finite (m : ℕ) (e : ℤ) (hm : 0 < m) : Unsigned (.finite .positive m e hm)

/-- The sign is plus, or a minus in front of zero. -/
inductive NotBelowZero : UnpackedFloat → Prop
  | unsigned {u : UnpackedFloat} : Unsigned u → NotBelowZero u
  | negativeZero : NotBelowZero (.zero .negative)

variable {u v : UnpackedFloat}

/-! ## Rounding and packing -/

theorem unsigned_unpack {b : BitVec Format.binary64.numBits}
    (h : unpackSign b = Sign.positive.toBitVec) : Unsigned (.unpack Format.binary64 b) := by
  have hs : Sign.ofBitVec (unpackSign b) = .positive := by
    rw [h]
    rfl
  unfold UnpackedFloat.unpack
  simp only [hs]
  split
  · split <;> constructor
  · split
    · split <;> constructor
    · constructor

theorem unpackSign_pack (h : Unsigned u) :
    unpackSign (u.pack Format.binary64) = Sign.positive.toBitVec := by
  cases h with
  | notANumber => exact unpackSign_packComponents _ _ _
  | infinity => exact unpackSign_packComponents _ _ _
  | zero => exact unpackSign_packComponents _ _ _
  | finite m e hm =>
    rw [UnpackedFloat.pack]
    dsimp only
    split
    · exact unpackSign_packComponents _ _ _
    · split <;> exact unpackSign_packComponents _ _ _

theorem unsigned_pack (h : Unsigned u) : Unsigned (Float.Model.pack u).unpack :=
  unsigned_unpack (unpackSign_pack h)

theorem notBelowZero_pack (h : NotBelowZero u) : NotBelowZero (Float.Model.pack u).unpack := by
  cases h with
  | unsigned h => exact .unsigned (unsigned_pack h)
  | negativeZero =>
    have hzero : (Float.Model.pack (.zero .negative)).unpack = .zero .negative :=
      UnpackedFloat.unpack_packedZero
    exact hzero ▸ .negativeZero

theorem unsigned_roundWithAccuracy (m : ℕ) (e : ℤ) (a : UnpackedFloat.Accuracy) :
    Unsigned (.roundWithAccuracy Format.binary64 .positive m e a) := by
  unfold UnpackedFloat.roundWithAccuracy
  dsimp only
  split <;> constructor

theorem unsigned_normalize {m : ℤ} (h : 0 ≤ m) (e : ℤ) :
    Unsigned (.normalize Format.binary64 m e .positive) := by
  unfold UnpackedFloat.normalize
  split
  · rename_i hm
    exact absurd (compare_lt_iff_lt.mp hm) (not_lt.mpr h)
  · exact .zero
  · exact unsigned_roundWithAccuracy _ _ _

/-! ## Arithmetic before packing -/

theorem unsigned_add (hu : Unsigned u) (hv : NotBelowZero v) :
    Unsigned (.add Format.binary64 u v) := by
  cases hv with
  | negativeZero => cases hu <;> constructor
  | unsigned hv =>
    cases hu with
    | finite m e hm =>
      cases hv with
      | finite m' e' hm' =>
        exact unsigned_normalize
          (Int.add_nonneg (Int.natCast_nonneg _) (Int.natCast_nonneg _)) _
      | _ => constructor
    | _ => cases hv <;> constructor

theorem unsigned_div (hu : Unsigned u) (hv : Unsigned v) :
    Unsigned (.div Format.binary64 u v) := by
  cases hu with
  | finite m e hm =>
    cases hv with
    | finite m' e' hm' => exact unsigned_roundWithAccuracy _ _ _
    | _ => constructor
  | _ => cases hv <;> constructor

theorem unsigned_mul (hu : Unsigned u) (hv : Unsigned v) :
    Unsigned (.mul Format.binary64 u v) := by
  cases hu with
  | finite m e hm =>
    cases hv with
    | finite m' e' hm' => exact unsigned_roundWithAccuracy _ _ _
    | _ => constructor
  | _ => cases hv <;> constructor

theorem notBelowZero_mul (hu : NotBelowZero u) (hv : NotBelowZero v) :
    NotBelowZero (.mul Format.binary64 u v) := by
  cases hu with
  | unsigned hu =>
    cases hv with
    | unsigned hv => exact .unsigned (unsigned_mul hu hv)
    | negativeZero =>
      cases hu with
      | notANumber => exact .unsigned .notANumber
      | infinity => exact .unsigned .notANumber
      | zero => exact .negativeZero
      | finite m e hm => exact .negativeZero
  | negativeZero =>
    cases hv with
    | negativeZero => exact .unsigned .zero
    | unsigned hv =>
      cases hv with
      | notANumber => exact .unsigned .notANumber
      | infinity => exact .unsigned .notANumber
      | zero => exact .negativeZero
      | finite m e hm => exact .negativeZero

theorem unsigned_ofScientific (m : ℕ) (e : ℤ) : Unsigned (.ofScientific Format.binary64 m e) := by
  unfold UnpackedFloat.ofScientific
  split
  · exact .zero
  split
  · exact .infinity
  split
  · exact .zero
  split
  · exact unsigned_mul (.finite _ _ _) (.finite _ _ _)
  · exact unsigned_div (.finite _ _ _) (.finite _ _ _)

/-! ## Doubles -/

variable {x y s : Float}

/-- Whether a double has no minus sign. -/
def IsPlus (x : Float) : Prop := Unsigned x.toModel.unpack

theorem notBelowZero_of_nonneg (h : 0 ≤ x) : NotBelowZero x.toModel.unpack := by
  obtain ⟨-, -, hplace⟩ := le_iff.mp h
  have hzero : place 0 = toLex (0, toLex (0, 0)) := by decide
  rw [hzero, place] at hplace
  rcases hx : x.toModel.unpack with (_ | _) | _ | (_ | _) | ⟨_ | _, m, e, hm⟩
  case infinity.negative =>
    rw [hx] at hplace
    exact absurd hplace (by decide)
  case infinity.positive => exact .unsigned .infinity
  case notANumber => exact .unsigned .notANumber
  case zero.negative => exact .negativeZero
  case zero.positive => exact .unsigned .zero
  case finite.negative =>
    rw [hx] at hplace
    simp [rank, Prod.Lex.toLex_le_toLex, Sign.apply] at hplace
  case finite.positive => exact .unsigned (.finite m e hm)

theorem nonneg_of_notBelowZero (h : NotBelowZero x.toModel.unpack) (hn : IsNumber x) : 0 ≤ x := by
  have hzero : place 0 = toLex (0, toLex (0, 0)) := by decide
  have hrank : ∀ u, NotBelowZero u → toLex (0, toLex (0, 0)) ≤ rank u := by
    rintro u (h | -)
    · cases h with
      | infinity => decide
      | finite m e hm => exact Prod.Lex.toLex_le_toLex.mpr (.inl (show (0 : ℤ) < 1 by decide))
      | _ => exact le_rfl
    · exact le_rfl
  exact le_iff.mpr ⟨isNumber_of_isFinite rfl, hn, hzero ▸ hrank _ h⟩

theorem isPlus_zero : IsPlus 0 := by
  have hzero : (0 : Float).toModel.unpack = .zero .positive := rfl
  rw [IsPlus, hzero]
  exact .zero

theorem isPlus_one : IsPlus 1 := by
  have hone : (1 : Float).toModel.unpack = .finite .positive (2 ^ 52) (-52) (by decide) := rfl
  rw [IsPlus, hone]
  exact .finite _ _ _

theorem isPlus_add (hx : IsPlus x) (hy : 0 ≤ y) : IsPlus (x + y) :=
  unsigned_pack (unsigned_add hx (notBelowZero_of_nonneg hy))

theorem isPlus_add_mul (hs : IsPlus s) (hx : 0 ≤ x) (hy : 0 ≤ y) : IsPlus (s + x * y) := by
  have hmul : NotBelowZero (x * y).toModel.unpack :=
    notBelowZero_pack (notBelowZero_mul (notBelowZero_of_nonneg hx) (notBelowZero_of_nonneg hy))
  exact unsigned_pack (unsigned_add hs hmul)

theorem isPlus_div (hx : IsPlus x) (hy : IsPlus y) : IsPlus (x / y) :=
  unsigned_pack (unsigned_div hx hy)

theorem isPlus_ofNat (n : ℕ) : IsPlus (Float.ofNat n) := by
  show IsPlus (Float.ofScientific n false 0)
  unfold Float.ofScientific
  split
  · have hcount : Unsigned n.toUInt64.toFloat.toModel.unpack :=
      unsigned_pack (unsigned_normalize (Int.natCast_nonneg _) _)
    exact unsigned_pack (unsigned_mul hcount isPlus_one)
  · exact unsigned_pack (unsigned_ofScientific _ _)

theorem not_isPlus_neg_zero : ¬ IsPlus (-0) := by
  have hzero : (-0 : Float).toModel.unpack = .zero .negative := rfl
  intro h
  rw [IsPlus, hzero] at h
  cases h

/-- Numbers without a minus sign are equal if they are at the same place. -/
theorem eq_of_place_eq (hx : IsPlus x) (hy : IsPlus y) (nx : IsNumber x) (ny : IsNumber y)
    (h : place x = place y) : x = y := by
  have hbeq := beq_iff.mpr ⟨nx, ny, h⟩
  obtain ⟨-, -, heq | ⟨-, rfl⟩ | ⟨rfl, -⟩⟩ := Float.beq_iff_ne_nan_and_eq.mp hbeq
  · exact heq
  · exact absurd hy not_isPlus_neg_zero
  · exact absurd hx not_isPlus_neg_zero

end Double

end TraceRecovery
