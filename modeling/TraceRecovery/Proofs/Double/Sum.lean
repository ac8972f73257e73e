import TraceRecovery.Proofs.Double.Arithmetic
import TraceRecovery.Proofs.Double.Closeness

/-!
# Sums of doubles

Amounts are summed up from left to right. Each addition is rounded once, so a sum is that of the
values up to one rounding for each number behind the first (`Double.close_sum`). Sums are monotone in
their numbers even so (`Double.value_sum_le`), and zeros do not matter (`Double.sum_filter`).
-/

namespace TraceRecovery

namespace Double

open Float.Model (UnpackedFloat Format)

variable {xs : List Float} {x y : Float} {q : ℚ}

/-! ## Values -/

/-- The value of an amount is a multiple of the least double. -/
theorem IsAmount.exists_value_eq (hx : IsAmount x) : ∃ k : ℤ, value x = k * 2 ^ (-1074 : ℤ) := by
  rw [value]
  rcases hx.zero_or_finite with ⟨s, hux⟩ | ⟨m, e, hm, hux⟩
  · refine ⟨0, ?_⟩
    rw [hux, Int.cast_zero, zero_mul]
    rfl
  · have hmultiple := div_eq_intCast (fits_of_unpack hux).le m
    rw [div_eq_iff (two_zpow_pos _).ne'] at hmultiple
    refine ⟨m * 2 ^ (e - -1074).toNat, ?_⟩
    rw [hux, magnitude_finite, ← hmultiple, Int.cast_natCast]

/-- The value of an amount is a double. -/
theorem IsAmount.nearest_value (hx : IsAmount x) : nearest (value x) = value x := by
  rw [value]
  rcases hx.zero_or_finite with ⟨s, hux⟩ | ⟨m, e, hm, hux⟩
  · rw [hux]
    exact nearest_zero
  · have hfits := fits_of_unpack hux
    rw [hux, magnitude_finite, nearest_of_double hfits.lt hfits.le]

/-- So is the double of it, overflow aside. -/
theorem IsAmount.nearest_two_mul_value (hx : IsAmount x) :
    nearest (2 * value x) = 2 * value x := by
  rw [value]
  rcases hx.zero_or_finite with ⟨s, hux⟩ | ⟨m, e, hm, hux⟩
  · have hzero : 2 * magnitude (.zero s) = 0 := mul_zero 2
    rw [hux, hzero, nearest_zero]
  · have hfits := fits_of_unpack hux
    have hdouble : 2 * (m * 2 ^ e : ℚ) = m * 2 ^ (e + 1) := by
      rw [zpow_add_one₀ two_ne_zero]
      ring
    rw [hux, magnitude_finite, hdouble, nearest_of_double hfits.lt (hfits.le.trans (by omega))]

/-- The sum of two amounts does not underflow. -/
theorem close_add (hx : IsAmount x) (hy : IsAmount y) :
    Close 1 0 (value x + value y) (nearest (value x + value y)) := by
  obtain ⟨k, hk⟩ := hx.exists_value_eq
  obtain ⟨l, hl⟩ := hy.exists_value_eq
  refine close_nearest_of_multiple (k := k + l) (add_nonneg hx.value_nonneg hy.value_nonneg) ?_
  rw [hk, hl, ← add_mul, Int.cast_add]

/-! ## Sums -/

/-- The sum of some doubles, from left to right. -/
def sum (xs : List Float) : Float := xs.foldl (· + ·) 0

@[simp] theorem sum_nil : sum [] = 0 := rfl

theorem sum_concat (xs : List Float) (x : Float) : sum (xs ++ [x]) = sum xs + x :=
  List.foldl_concat ..

/-- An infinite number stays infinite if an amount is added to it. -/
theorem isFinite_of_isFinite_add (hx : IsPlus x) (nx : IsNumber x) (hy : IsAmount y)
    (h : (x + y).isFinite = true) : x.isFinite = true := by
  have hadd : (Float.Model.pack (UnpackedFloat.add Format.binary64 x.toModel.unpack
    y.toModel.unpack)).unpack.isFinite = true := h
  show x.toModel.unpack.isFinite = true
  rw [IsPlus] at hx
  rw [IsNumber] at nx
  generalize x.toModel.unpack = u at hx nx hadd ⊢
  cases hx with
  | notANumber => exact absurd rfl nx
  | infinity =>
    have hinfinite : UnpackedFloat.add Format.binary64 (.infinity .positive) y.toModel.unpack =
        .infinity .positive := by
      rcases hy.zero_or_finite with ⟨s, huy⟩ | ⟨m, e, hm, huy⟩ <;> rw [huy] <;> rfl
    rw [hinfinite, unpack_pack_infinity] at hadd
    exact absurd hadd Bool.false_ne_true
  | zero => rfl
  | finite m e hm => rfl

/-- The sum of amounts is a number from zero on, which may be infinite. -/
theorem sum_spec (hxs : ∀ x ∈ xs, IsAmount x) : IsPlus (sum xs) ∧ IsNumber (sum xs) :=
  List.foldlRecOn (motive := fun s => IsPlus s ∧ IsNumber s) _ _
    ⟨isPlus_zero, isNumber_of_isFinite rfl⟩ fun _ ⟨hs, ns⟩ x hx =>
      ⟨isPlus_add hs (hxs x hx).nonneg, isNumber_add hs ns (hxs x hx).nonneg⟩

/-- The sum of amounts is an amount if it is finite. -/
theorem isAmount_sum (hxs : ∀ x ∈ xs, IsAmount x) (h : (sum xs).isFinite = true) :
    IsAmount (sum xs) :=
  ⟨h, nonneg_of_notBelowZero (.unsigned (sum_spec hxs).1) (sum_spec hxs).2⟩

section Concat

variable (hxs : ∀ x ∈ xs, IsAmount x) (hx : IsAmount x)

include hxs hx

theorem isFinite_sum_of_concat (h : (sum (xs ++ [x])).isFinite = true) :
    (sum xs).isFinite = true := by
  rw [sum_concat] at h
  exact isFinite_of_isFinite_add (sum_spec hxs).1 (sum_spec hxs).2 hx h

theorem rounds_sum_concat (h : (sum xs).isFinite = true) :
    Rounds (sum (xs ++ [x])).toModel.unpack (value (sum xs) + value x) := by
  rw [sum_concat]
  exact rounds_add (isAmount_sum hxs h) hx

end Concat

theorem rounds_sum_singleton (hx : IsAmount x) : Rounds (sum [x]).toModel.unpack (value x) := by
  have hround := rounds_sum_concat (List.forall_mem_nil _) hx rfl
  rwa [sum_nil, value_zero, zero_add] at hround

theorem value_sum_singleton (hx : IsAmount x) : value (sum [x]) = value x :=
  ((rounds_sum_singleton hx).value_eq (isFinite_zero_add hx.isFinite)).trans hx.nearest_value

theorem IsAmount.value_lt (hx : IsAmount x) : value x < 2 ^ 1024 := by
  rw [← hx.nearest_value]
  exact (rounds_sum_singleton hx).lt_of_isFinite (isFinite_zero_add hx.isFinite)

/-- A part of an amount is an amount. -/
theorem mul_of_le_one (hx : IsAmount x) (hle : value x ≤ 1) (hy : IsAmount y) :
    IsAmount (x * y) ∧ value (x * y) ≤ value y := by
  have hround := rounds_mul hx hy
  have hnearest : nearest (value x * value y) ≤ value y :=
    calc nearest (value x * value y) ≤ nearest (value y) :=
          nearest_mono (mul_nonneg hx.value_nonneg hy.value_nonneg)
            (mul_le_of_le_one_left hy.value_nonneg hle)
      _ = value y := hy.nearest_value
  have hamount := hround.isAmount (hnearest.trans_lt hy.value_lt)
  exact ⟨hamount, (hround.value_eq hamount.isFinite).trans_le hnearest⟩

/-- Each addition behind the first one is rounded. -/
theorem close_sum (hxs : ∀ x ∈ xs, IsAmount x) (h : (sum xs).isFinite = true) :
    Close (xs.length - 1) 0 (xs.map value).sum (value (sum xs)) := by
  induction xs using List.reverseRecOn with
  | nil => exact .refl 0
  | append_singleton xs x ih =>
    obtain ⟨hinit, hlast⟩ := List.forall_mem_append.mp hxs
    have hx : IsAmount x := hlast x List.mem_cons_self
    have hfinite := isFinite_sum_of_concat hinit hx h
    cases xs with
    | nil =>
      rw [List.nil_append, value_sum_singleton hx]
      simpa using Close.refl (value x)
    | cons y ys =>
      have hstep := ((ih hinit hfinite).add (.mono (.refl (value x)) hx.value_nonneg
        hx.value_nonneg (Nat.zero_le _) le_rfl)).trans
          (close_add (isAmount_sum hinit hfinite) hx) (by norm_num) le_rfl
      rw [(rounds_sum_concat hinit hx hfinite).value_eq h, List.map_append, List.sum_append]
      simpa using hstep

section Pairs

variable {α : Type*} {es : List α} {f g : α → Float}

/-- Sums are monotone in spite of rounding. In particular the lesser one does not overflow alone. -/
theorem value_sum_le (hf : ∀ e ∈ es, IsAmount (f e)) (hg : ∀ e ∈ es, IsAmount (g e))
    (hle : ∀ e ∈ es, value (f e) ≤ value (g e)) (h : (sum (es.map g)).isFinite = true) :
    (sum (es.map f)).isFinite = true ∧ value (sum (es.map f)) ≤ value (sum (es.map g)) := by
  induction es using List.reverseRecOn with
  | nil => exact ⟨h, le_rfl⟩
  | append_singleton es e ih =>
    simp only [List.forall_mem_append, List.forall_mem_singleton] at hf hg hle
    rw [List.map_append, List.map_singleton] at h
    have hfs : ∀ x ∈ es.map f, IsAmount x := List.forall_mem_map.mpr hf.1
    have hgs : ∀ x ∈ es.map g, IsAmount x := List.forall_mem_map.mpr hg.1
    have hfinite := isFinite_sum_of_concat hgs hg.2 h
    obtain ⟨hfinite', hsum⟩ := ih hf.1 hg.1 hle.1 hfinite
    have hround := rounds_sum_concat hfs hf.2 hfinite'
    have hround' := rounds_sum_concat hgs hg.2 hfinite
    have hnearest := nearest_mono (add_nonneg (isAmount_sum hfs hfinite').value_nonneg
      hf.2.value_nonneg) (add_le_add hsum hle.2)
    have hf' := hround.isAmount (hnearest.trans_lt (hround'.lt_of_isFinite h))
    rw [List.map_append, List.map_singleton, List.map_append, List.map_singleton]
    refine ⟨hf'.isFinite, ?_⟩
    rw [hround.value_eq hf'.isFinite, hround'.value_eq h]
    exact hnearest

end Pairs

/-- Numbers of at most one are lost in a sum of `2 ^ 54`. -/
theorem nearest_le_of_le (h : 0 ≤ q) (hle : q ≤ 2 ^ 54 + 1) : nearest q ≤ 2 ^ 54 := by
  have hlog : Int.log 2 (2 ^ 54 + 1 : ℚ) = 54 := log_eq_of_mem (by norm_num) (by norm_num)
  have hgrid : gridExponent (2 ^ 54 + 1) = 2 := by
    rw [gridExponent, hlog]
    rfl
  have hround : roundEven ((2 ^ 54 + 1 : ℚ) / 2 ^ (2 : ℤ)) = 2 ^ 52 :=
    roundEven_of_lt (by norm_num) (by norm_num)
  refine (nearest_mono h hle).trans ?_
  rw [nearest, hgrid, hround]
  norm_num

/-- However many numbers of at most one there are, their sum does not overflow. -/
theorem isFinite_sum_of_le_one (hxs : ∀ x ∈ xs, IsAmount x) (hle : ∀ x ∈ xs, value x ≤ 1) :
    (sum xs).isFinite = true ∧ value (sum xs) ≤ 2 ^ 54 := by
  induction xs using List.reverseRecOn with
  | nil => exact ⟨rfl, show (0 : ℚ) ≤ _ by positivity⟩
  | append_singleton xs x ih =>
    simp only [List.forall_mem_append, List.forall_mem_singleton] at hxs hle
    obtain ⟨hfinite, hsum⟩ := ih hxs.1 hle.1
    have hround := rounds_sum_concat hxs.1 hxs.2 hfinite
    have hnearest := nearest_le_of_le
      (add_nonneg (isAmount_sum hxs.1 hfinite).value_nonneg hxs.2.value_nonneg)
      (add_le_add hsum hle.2)
    have hamount := hround.isAmount (hnearest.trans_lt (pow_lt_pow_right₀ one_lt_two (by decide)))
    exact ⟨hamount.isFinite, (hround.value_eq hamount.isFinite).trans_le hnearest⟩

/-! ## Zeros -/

/-- Zero is added without an effect, whatever its sign is. -/
theorem add_eq_of_not_pos (hx : IsPlus x) (hy : IsAmount y) (h : ¬ 0 < y) : x + y = x := by
  have hadd : x + y = .ofModel (Float.Model.pack
      (UnpackedFloat.add Format.binary64 x.toModel.unpack y.toModel.unpack)) := rfl
  have hkept : UnpackedFloat.add Format.binary64 x.toModel.unpack y.toModel.unpack =
      x.toModel.unpack := by
    rw [IsPlus] at hx
    rcases hy.zero_or_finite with ⟨s, huy⟩ | ⟨m, e, hm, huy⟩
    · rw [huy]
      generalize x.toModel.unpack = u at hx
      cases hx with
      | zero => cases s <;> rfl
      | _ => rfl
    · refine absurd ((value_pos_iff hy).mp ?_) h
      rw [value, huy, magnitude_finite]
      positivity
  rw [hadd, hkept, pack_unpack]

theorem value_eq_zero_of_not_pos (hx : IsAmount x) (h : ¬ 0 < x) : value x = 0 :=
  le_antisymm (not_lt.mp (mt (value_pos_iff hx).mp h)) hx.value_nonneg

/-- A product with zero is zero. -/
theorem mul_not_pos (hx : IsAmount x) (hy : IsAmount y) (h : ¬ 0 < y) :
    IsAmount (x * y) ∧ ¬ 0 < x * y := by
  have hround := rounds_mul hx hy
  rw [value_eq_zero_of_not_pos hy h, mul_zero] at hround
  have hamount : IsAmount (x * y) := hround.isAmount (by rw [nearest_zero]; positivity)
  refine ⟨hamount, ?_⟩
  rw [← value_pos_iff hamount, hround.value_eq hamount.isFinite, nearest_zero]
  exact lt_irrefl 0

/-- Zeros do not matter in a sum. -/
theorem sum_filter {α : Type*} {es : List α} {f : α → Float} {p : α → Bool}
    (hf : ∀ e ∈ es, IsAmount (f e)) (hp : ∀ e ∈ es, p e = false → ¬ 0 < f e) :
    sum ((es.filter p).map f) = sum (es.map f) := by
  induction es using List.reverseRecOn with
  | nil => rfl
  | append_singleton es e ih =>
    simp only [List.forall_mem_append, List.forall_mem_singleton] at hf hp
    have hes : ∀ x ∈ es.map f, IsAmount x := List.forall_mem_map.mpr hf.1
    rw [List.filter_append, List.map_append, List.map_append, List.map_singleton, sum_concat]
    cases he : p e with
    | false =>
      rw [List.filter_cons_of_neg (Bool.eq_false_iff.mp he), List.filter_nil, List.map_nil,
        List.append_nil, ih hf.1 hp.1, add_eq_of_not_pos (sum_spec hes).1 hf.2 (hp.2 he)]
    | true =>
      rw [List.filter_cons_of_pos he, List.filter_nil, List.map_singleton, sum_concat,
        ih hf.1 hp.1]

theorem pos_of_not_isFinite (hx : IsPlus x) (nx : IsNumber x) (h : ¬ x.isFinite = true) : 0 < x := by
  refine lt_iff.mpr ⟨isNumber_of_isFinite rfl, nx, ?_⟩
  have hinfinite : ¬ x.toModel.unpack.isFinite = true := h
  rw [IsPlus] at hx
  rw [IsNumber] at nx
  show place 0 < rank x.toModel.unpack
  generalize x.toModel.unpack = u at hx nx hinfinite ⊢
  cases hx with
  | notANumber => exact absurd rfl nx
  | infinity => decide
  | zero => exact absurd rfl hinfinite
  | finite m e hm => exact absurd rfl hinfinite

theorem pos_add (hx : IsPlus x) (nx : IsNumber x) (hy : IsAmount y) (h : 0 < x ∨ 0 < y) :
    0 < x + y := by
  have hplus := isPlus_add hx hy.nonneg
  have hnumber := isNumber_add hx nx hy.nonneg
  by_cases hfinite : (x + y).isFinite = true
  · have hx' : IsAmount x := ⟨isFinite_of_isFinite_add hx nx hy hfinite,
      nonneg_of_notBelowZero (.unsigned hx) nx⟩
    have hxy : IsAmount (x + y) := ⟨hfinite, nonneg_of_notBelowZero (.unsigned hplus) hnumber⟩
    rw [← value_pos_iff hxy, (rounds_add hx' hy).value_eq hfinite]
    rcases h with h | h
    · calc 0 < value x := (value_pos_iff hx').mpr h
        _ = nearest (value x) := hx'.nearest_value.symm
        _ ≤ nearest (value x + value y) :=
          nearest_mono hx'.value_nonneg (le_add_of_nonneg_right hy.value_nonneg)
    · calc 0 < value y := (value_pos_iff hy).mpr h
        _ = nearest (value y) := hy.nearest_value.symm
        _ ≤ nearest (value x + value y) :=
          nearest_mono hy.value_nonneg (le_add_of_nonneg_left hx'.value_nonneg)
  · exact pos_of_not_isFinite hplus hnumber hfinite

/-- A sum is positive if one of its numbers is. -/
theorem pos_sum (hxs : ∀ x ∈ xs, IsAmount x) (hx : x ∈ xs) (hpos : 0 < x) : 0 < sum xs := by
  induction xs using List.reverseRecOn with
  | nil => cases hx
  | append_singleton xs y ih =>
    simp only [List.forall_mem_append, List.forall_mem_singleton] at hxs
    obtain ⟨hplus, hnumber⟩ := sum_spec hxs.1
    rw [sum_concat]
    rcases List.mem_append.mp hx with hx | hx
    · exact pos_add hplus hnumber hxs.2 (.inl (ih hxs.1 hx))
    · rw [List.mem_singleton.mp hx] at hpos
      exact pos_add hplus hnumber hxs.2 (.inr hpos)

end Double

end TraceRecovery
