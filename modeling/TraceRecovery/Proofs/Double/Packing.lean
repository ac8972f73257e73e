import TraceRecovery.Proofs.Double.Order

/-!
# Packing doubles

What is read back from the bits of a number (`Double.unpack_pack_finite`): a mantissa of 53 bits
stays as it is unless its exponent is out of range, one above which infinity begins. A mantissa with
fewer bits is that of a subnormal number. So what is packed as a number is read as one
(`Double.unpack_pack_ne_notANumber`).
-/

namespace TraceRecovery

namespace Double

open Float.Model (UnpackedFloat Format)
open Float.Model.UnpackedFloat (Sign packComponents)

variable {u : UnpackedFloat} {s : Sign} {m : ℕ} {e : ℤ}

theorem unpack_packComponents (s : Sign) (e : BitVec 11) (m : BitVec 52) :
    UnpackedFloat.unpack Format.binary64 (packComponents Format.binary64 s e m) =
      if e = -1#11 then (if m = 0#52 then .infinity s else .notANumber)
      else if e = 0#11 then
        (if h : m.toNat = 0 then .zero s else .finite s m.toNat (-1074) (Nat.pos_of_ne_zero h))
      else .finite s (2 ^ 52 + m.toNat) (e.toNat - 1075) (by positivity) := by
  have hmantissa : (1#1 ++ m).toNat = 2 ^ 52 + m.toNat := by
    rw [BitVec.toNat_append, ← Nat.shiftLeft_add_eq_or_of_lt m.isLt]
    rfl
  have hzero : m = 0#52 ↔ m.toNat = 0 := by
    rw [← BitVec.toNat_inj]
    rfl
  unfold UnpackedFloat.unpack
  simp only [UnpackedFloat.unpackMantissa_packComponents,
    UnpackedFloat.unpackExponent_packComponents, UnpackedFloat.unpackSign_packComponents,
    Sign.ofBitVec_toBitVec, hmantissa]
  split
  · rfl
  · split
    · rename_i hexp
      simp only [hexp, hzero]
      rfl
    · rfl

theorem pack_finite (hm : 0 < m) : UnpackedFloat.pack Format.binary64 (.finite s m e hm) =
    if 972 ≤ e then packComponents Format.binary64 s (-1#11) 0#52
    else if m.log2 = 52 then
      packComponents Format.binary64 s (BitVec.ofNat 11 (e + 1075).toNat) (BitVec.ofNat 52 m)
    else packComponents Format.binary64 s 0#11 (BitVec.ofNat 52 m) := by
  have hexp : e + Format.binary64.exponentBias + Format.binary64.mantissaBitsWithoutImplicit =
      e + 1075 := by
    show e + 1023 + 52 = e + 1075
    omega
  have hlarge : 2 ^ Format.binary64.exponentBits ≤ (e + 1075).toNat + 1 ↔ 972 ≤ e := by
    show 2048 ≤ _ ↔ _
    omega
  have hbits : m.log2 + 1 = Format.binary64.mantissaBits ↔ m.log2 = 52 := by
    show m.log2 + 1 = 53 ↔ _
    omega
  simp only [UnpackedFloat.pack, hexp, hlarge, hbits]
  rfl

theorem unpack_pack_finite (hm : 0 < m) : (Float.Model.pack (.finite s m e hm)).unpack =
    if 972 ≤ e then .infinity s
    else if m.log2 = 52 ∧ -1074 ≤ e then .finite s m e hm
    else if h : m % 2 ^ 52 = 0 then .zero s
    else .finite s (m % 2 ^ 52) (-1074) (Nat.pos_of_ne_zero h) := by
  have hmod : (BitVec.ofNat 52 m).toNat = m % 2 ^ 52 := BitVec.toNat_ofNat _ _
  have hpack : (Float.Model.pack (.finite s m e hm)).unpack =
      UnpackedFloat.unpack Format.binary64
        (UnpackedFloat.pack Format.binary64 (.finite s m e hm)) := rfl
  rw [hpack, pack_finite]
  by_cases hlarge : 972 ≤ e
  · rw [if_pos hlarge, if_pos hlarge, unpack_packComponents, if_pos rfl, if_pos rfl]
  rw [if_neg hlarge, if_neg hlarge]
  by_cases hlog : m.log2 = 52
  · obtain ⟨hle, hlt⟩ := (Nat.log2_eq_iff hm.ne').mp hlog
    have hexp : (BitVec.ofNat 11 (e + 1075).toNat).toNat = (e + 1075).toNat := by
      rw [BitVec.toNat_ofNat]
      omega
    have hfull : BitVec.ofNat 11 (e + 1075).toNat ≠ -1#11 := fun h => by
      have htoNat : (e + 1075).toNat = 2047 := hexp ▸ congrArg BitVec.toNat h
      omega
    have hzero : BitVec.ofNat 11 (e + 1075).toNat = 0#11 ↔ e < -1074 := by
      rw [← BitVec.toNat_inj, hexp]
      show (e + 1075).toNat = 0 ↔ _
      omega
    rw [if_pos hlog, unpack_packComponents, if_neg hfull, hmod]
    by_cases hsmall : -1074 ≤ e
    · rw [if_neg (hzero.not.mpr (by omega)), if_pos ⟨hlog, hsmall⟩, hexp]
      congr 1 <;> omega
    · rw [if_pos (hzero.mpr (by omega)), if_neg (fun h => hsmall h.2)]
  · rw [if_neg hlog, if_neg (fun h => hlog h.1), unpack_packComponents, hmod,
      if_neg (by decide), if_pos rfl]

@[simp] theorem unpack_pack_infinity (s : Sign) :
    (Float.Model.pack (.infinity s)).unpack = .infinity s :=
  (unpack_packComponents s (-1#11) 0#52).trans (by simp)

@[simp] theorem unpack_pack_zero (s : Sign) : (Float.Model.pack (.zero s)).unpack = .zero s :=
  UnpackedFloat.unpack_packedZero

/-- What is packed as a number is read as one. -/
theorem unpack_pack_ne_notANumber (h : u ≠ .notANumber) :
    (Float.Model.pack u).unpack ≠ .notANumber := by
  cases u with
  | notANumber => exact absurd rfl h
  | infinity s => simp
  | zero s => simp
  | finite s m e hm =>
    rw [unpack_pack_finite]
    split
    · exact nofun
    · split
      · exact nofun
      · split <;> exact nofun

/-- What has been read from the bits of a double has the same bits. -/
@[simp] theorem pack_unpack (x : Float.Model) : Float.Model.pack x.unpack = x := by
  obtain ⟨bits, hvalid⟩ := x
  have hbits : UnpackedFloat.pack Format.binary64 (.unpack Format.binary64 bits.toBitVec) =
      bits.toBitVec := UnpackedFloat.pack_unpack_of_valid hvalid
  simp only [Float.Model.unpack, Float.Model.pack, hbits]

end Double

end TraceRecovery
