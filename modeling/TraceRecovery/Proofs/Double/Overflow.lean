import TraceRecovery.Proofs.Double.Rounding
import TraceRecovery.Proofs.Double.Sign

/-!
# Overflow

Infinity is a number, so sums of numbers from zero on are numbers even if they overflow. A quotient
of such numbers is none where both are zero or both are infinite (`Double.isNumber_div_iff`).
-/

namespace TraceRecovery

namespace Double

open Float.Model (UnpackedFloat Format)

/-! ## Before packing -/

variable {u v : UnpackedFloat}

theorem normalize_ne_notANumber (m e : ℤ) (s : UnpackedFloat.Sign) :
    UnpackedFloat.normalize Format.binary64 m e s ≠ .notANumber := by
  unfold UnpackedFloat.normalize
  split
  · exact roundWithAccuracy_ne_notANumber
  · exact nofun
  · exact roundWithAccuracy_ne_notANumber

theorem add_ne_notANumber (hu : Unsigned u) (hv : NotBelowZero v) (nu : u ≠ .notANumber)
    (nv : v ≠ .notANumber) : UnpackedFloat.add Format.binary64 u v ≠ .notANumber := by
  cases hv with
  | negativeZero => cases hu <;> first | exact absurd rfl nu | exact nofun
  | unsigned hv =>
    cases hu with
    | finite m e hm =>
      cases hv with
      | finite m' e' hm' => exact normalize_ne_notANumber _ _ _
      | _ => first | exact absurd rfl nv | exact nofun
    | notANumber => exact absurd rfl nu
    | _ => cases hv <;> first | exact absurd rfl nv | exact nofun

theorem div_ne_notANumber_iff (hu : Unsigned u) (hv : Unsigned v) (nu : u ≠ .notANumber)
    (nv : v ≠ .notANumber) (hzero : v ≠ .zero .positive) :
    UnpackedFloat.div Format.binary64 u v ≠ .notANumber ↔
      ¬ (u.isInf = true ∧ v.isInf = true) := by
  cases hv with
  | notANumber => exact absurd rfl nv
  | zero => exact absurd rfl hzero
  | infinity =>
    cases hu with
    | notANumber => exact absurd rfl nu
    | infinity => exact iff_of_false (fun h => h rfl) (fun h => h ⟨rfl, rfl⟩)
    | _ => exact iff_of_true nofun nofun
  | finite m' e' hm' =>
    cases hu with
    | notANumber => exact absurd rfl nu
    | finite m e hm => exact iff_of_true roundWithAccuracy_ne_notANumber nofun
    | _ => exact iff_of_true nofun nofun

/-! ## Doubles -/

variable {x y : Float}

theorem isFinite_of_mem (h : 0 ≤ x ∧ x ≤ 1) : x.isFinite = true := by
  have hone : place 1 = toLex (1, toLex (-52, 2 ^ 52)) := rfl
  have hplus := notBelowZero_of_nonneg h.1
  obtain ⟨hn, -, hle⟩ := le_iff.mp h.2
  rw [hone, place] at hle
  show x.toModel.unpack.isFinite = true
  cases hu : x.toModel.unpack with
  | notANumber => exact absurd hu hn
  | infinity s =>
    rw [hu] at hle hplus
    cases hplus with
    | unsigned h =>
      cases h
      exact absurd hle (by decide)
  | _ => rfl

theorem isNumber_add (hx : IsPlus x) (nx : IsNumber x) (hy : 0 ≤ y) : IsNumber (x + y) :=
  unpack_pack_ne_notANumber
    (add_ne_notANumber hx (notBelowZero_of_nonneg hy) nx (isNumber_of_le hy).2)

/-- The quotient of numbers without a minus sign, the second of which is not zero, is a number unless
both are infinite. -/
theorem isNumber_div_iff (hx : IsPlus x) (nx : IsNumber x) (hy : IsPlus y) (ny : IsNumber y)
    (hzero : (y == 0) = false) :
    IsNumber (x / y) ↔ ¬ (x.isInf = true ∧ y.isInf = true) := by
  have hne : y.toModel.unpack ≠ .zero .positive := fun h => by
    have hplace : place y = place 0 := by
      rw [place, h]
      decide
    rw [beq_iff.mpr ⟨ny, isNumber_of_isFinite rfl, hplace⟩] at hzero
    cases hzero
  refine Iff.trans ?_ (div_ne_notANumber_iff hx hy nx ny hne)
  refine ⟨fun h hdiv => h ?_, unpack_pack_ne_notANumber⟩
  show (Float.Model.pack (UnpackedFloat.div Format.binary64 _ _)).unpack = _
  rw [hdiv]
  exact UnpackedFloat.unpack_packedNaN

/-- A finite number that is added to zero stays as it is, apart from the sign of zero. -/
theorem zero_add_eq (h : x.isFinite = true) : 0 + x = x ∨ 0 + x = 0 := by
  have hadd : 0 + x = .ofModel (Float.Model.pack
      (UnpackedFloat.add Format.binary64 (.zero .positive) x.toModel.unpack)) := rfl
  have hfinite : x.toModel.unpack.isFinite = true := h
  cases hu : x.toModel.unpack with
  | zero s =>
    rw [hu] at hadd
    cases s <;> exact .inr hadd
  | finite s m e hm =>
    rw [hu] at hadd
    have hpack : Float.Model.pack (.finite s m e hm) = x.toModel := hu ▸ pack_unpack x.toModel
    exact .inl (hadd.trans (congrArg Float.ofModel hpack))
  | _ =>
    rw [hu] at hfinite
    cases hfinite

theorem isInf_eq_false_of_isFinite (h : x.isFinite = true) : x.isInf = false := by
  have hfinite : x.toModel.unpack.isFinite = true := h
  show x.toModel.unpack.isInf = false
  cases hu : x.toModel.unpack with
  | infinity s =>
    rw [hu] at hfinite
    cases hfinite
  | _ => rfl

theorem isInf_eq_false_of_beq_zero (h : (x == 0) = true) : x.isInf = false := by
  obtain ⟨-, -, hplace⟩ := beq_iff.mp h
  have hzero : place 0 = toLex (0, toLex (0, 0)) := by decide
  rw [hzero, place] at hplace
  show x.toModel.unpack.isInf = false
  cases hu : x.toModel.unpack with
  | infinity s =>
    rw [hu] at hplace
    cases s <;> exact absurd hplace (by decide)
  | _ => rfl

theorem isFinite_zero_add (h : x.isFinite = true) : (0 + x).isFinite = true := by
  rcases zero_add_eq h with heq | heq
  · rwa [heq]
  · rw [heq]
    rfl

end Double

end TraceRecovery
