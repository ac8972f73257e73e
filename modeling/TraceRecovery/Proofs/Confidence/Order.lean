import TraceRecovery.Aggregation
import TraceRecovery.Proofs.Double.Order

/-!
# The order of confidences

Confidences are preordered, and any two can be compared: an abstention is below every value, and
values are always numbers. They follow the order of places (`Confidence.place`), in which only the
two zeros are not told apart.

* `Confidence.isGreatest_bestOf`: the best of some confidences is a greatest one of them;
* `Confidence.bestOf_le_bestOf`: it does not get worse where confidences are replaced by better ones
  or others join them;
* `Confidence.IsBestOf`: the same for a set of confidences, which may be empty;
* `Aggregation.combine_max`: it is what the aggregation that takes the maximum yields, which
  therefore never fails.
-/

namespace TraceRecovery

namespace Confidence

/-- The place of a confidence in the order. -/
def place : Confidence → WithBot (ℤ ×ₗ ℤ ×ₗ ℤ)
  | unset => ⊥
  | of v _ => Double.place v

variable {a b c : Confidence} {cs ds : List Confidence}

theorem compare_eq_lt_iff : compare a b = .lt ↔ a.place < b.place := by
  cases a with
  | unset => cases b <;> simp [compare, place]
  | of v hv =>
    cases b with
    | unset => simp [compare, place]
    | of w hw =>
      have hnv := (Double.isNumber_of_le hv.1).2
      have hnw := (Double.isNumber_of_le hw.1).2
      have hlt : v < w ↔ Double.place v < Double.place w := by simp [Double.lt_iff, hnv, hnw]
      simp only [compare, place, WithBot.coe_lt_coe, ← hlt]
      split
      · simp_all
      · split <;> simp_all

theorem compare_eq_gt_iff : compare a b = .gt ↔ b.place < a.place := by
  rw [← compare_eq_lt_iff]
  cases a with
  | unset => cases b <;> simp [compare]
  | of v hv =>
    cases b with
    | unset => simp [compare]
    | of w hw =>
      have hnv := (Double.isNumber_of_le hv.1).2
      have hnw := (Double.isNumber_of_le hw.1).2
      have hasymm : v < w → ¬ w < v := fun h h' =>
        lt_asymm (Double.lt_iff.mp h).2.2 (Double.lt_iff.mp h').2.2
      simp only [compare]
      split
      · simp_all
      · split <;> simp_all

theorem lt_iff : a < b ↔ a.place < b.place := compare_eq_lt_iff

theorem le_iff : a ≤ b ↔ a.place ≤ b.place := by
  rw [← not_lt, ← compare_eq_gt_iff]
  rfl

theorem of_le_of_iff {v w : Float} {hv : 0 ≤ v ∧ v ≤ 1} {hw : 0 ≤ w ∧ w ≤ 1} :
    of v hv ≤ of w hw ↔ v ≤ w := by
  have hnv := (Double.isNumber_of_le hv.1).2
  have hnw := (Double.isNumber_of_le hw.1).2
  rw [le_iff, Double.le_iff, and_iff_right hnv, and_iff_right hnw]
  exact WithBot.coe_le_coe

instance : Preorder Confidence where
  le_refl a := le_iff.mpr le_rfl
  le_trans a b c hab hbc := le_iff.mpr ((le_iff.mp hab).trans (le_iff.mp hbc))
  lt_iff_le_not_ge a b := by rw [lt_iff, le_iff, le_iff, lt_iff_le_not_ge]

theorem le_of_not_lt (h : ¬ a < b) : b ≤ a := le_iff.mpr (not_lt.mp (lt_iff.not.mp h))

theorem unset_le (a : Confidence) : unset ≤ a := le_iff.mpr bot_le

theorem eq_unset_of_le (h : a ≤ unset) : a = unset := by
  cases a with
  | unset => rfl
  | of v hv => exact absurd (le_iff.mp h) (WithBot.not_coe_le_bot _)

theorem isDefined_or_eq_unset (a : Confidence) : a.isDefined = true ∨ a = unset := by
  cases a with
  | unset => exact .inr rfl
  | of v hv => exact .inl rfl

theorem eq_unset_of_isDefined_eq_false (h : a.isDefined = false) : a = unset :=
  (isDefined_or_eq_unset a).resolve_left (Bool.eq_false_iff.mp h)

theorem isDefined_of_le (h : a ≤ b) (ha : a.isDefined = true) : b.isDefined = true := by
  refine (isDefined_or_eq_unset b).resolve_right fun hb => ?_
  have hle : a ≤ unset := hb ▸ h
  rw [eq_unset_of_le hle] at ha
  cases ha

theorem isDefined_of_lt (h : a < b) : b.isDefined = true :=
  (isDefined_or_eq_unset b).resolve_right fun hb => not_le_of_gt h (hb ▸ unset_le a)

/-! ## The best of several -/

theorem le_best_left : a ≤ best a b := by
  unfold best
  split
  · exact le_of_lt ‹_›
  · exact le_rfl

theorem le_best_right : b ≤ best a b := by
  unfold best
  split
  · exact le_rfl
  · exact le_of_not_lt ‹_›

theorem best_eq : best a b = a ∨ best a b = b := by
  unfold best
  split
  · exact .inr rfl
  · exact .inl rfl

@[simp] theorem unset_best (a : Confidence) : best unset a = a := by
  cases a <;> rfl

@[simp] theorem best_unset (a : Confidence) : best a unset = a := by
  cases a <;> rfl

theorem best_of_le (h : b ≤ a) : best a b = a :=
  if_neg fun hlt => absurd hlt (lt_iff.not.mpr (not_lt.mpr (le_iff.mp h)))

/-- The better of two confidences is a greatest one of them. -/
theorem isGreatest_best (a b : Confidence) : IsGreatest {a, b} (best a b) := by
  refine ⟨best_eq, ?_⟩
  rintro c (rfl | rfl)
  · exact le_best_left
  · exact le_best_right

/-- Going through some confidences with the best so far ends with one that none of them exceeds. -/
theorem isGreatest_foldl_best (a : Confidence) (cs : List Confidence) :
    IsGreatest {c | c ∈ a :: cs} (cs.foldl best a) := by
  induction cs generalizing a with
  | nil => simp
  | cons b cs ih =>
    obtain ⟨hmem, hupper⟩ := ih (best a b)
    have hbest : best a b ≤ cs.foldl best (best a b) := hupper List.mem_cons_self
    refine ⟨?_, ?_⟩
    · rcases List.mem_cons.mp hmem with h | h
      · show cs.foldl best (best a b) ∈ a :: b :: cs
        rw [h]
        rcases best_eq (a := a) (b := b) with h | h <;> simp [h]
      · exact List.mem_cons_of_mem _ (List.mem_cons_of_mem _ h)
    · intro c hc
      rcases List.mem_cons.mp hc with rfl | hc
      · exact le_best_left.trans hbest
      · rcases List.mem_cons.mp hc with rfl | hc
        · exact le_best_right.trans hbest
        · exact hupper (List.mem_cons_of_mem _ hc)

theorem le_bestOf (h : c ∈ cs) : c ≤ bestOf cs :=
  (isGreatest_foldl_best unset cs).2 (List.mem_cons_of_mem _ h)

theorem eq_unset_or_mem_bestOf (cs : List Confidence) : bestOf cs = unset ∨ bestOf cs ∈ cs :=
  List.mem_cons.mp (isGreatest_foldl_best unset cs).1

theorem bestOf_le (h : ∀ c ∈ cs, c ≤ a) : bestOf cs ≤ a := by
  rcases eq_unset_or_mem_bestOf cs with he | hm
  · exact he ▸ unset_le a
  · exact h _ hm

/-- The best of some confidences is a greatest one of them. -/
theorem isGreatest_bestOf (h : cs ≠ []) : IsGreatest {c | c ∈ cs} (bestOf cs) := by
  refine ⟨?_, fun c hc => le_bestOf hc⟩
  rcases eq_unset_or_mem_bestOf cs with he | hm
  · obtain ⟨c, hc⟩ := List.exists_mem_of_ne_nil cs h
    have hunset : c = unset := eq_unset_of_le (he ▸ le_bestOf hc)
    show bestOf cs ∈ cs
    rw [he, ← hunset]
    exact hc
  · exact hm

/-- The best does not get worse where each confidence is at most one of others. -/
theorem bestOf_le_bestOf (h : ∀ c ∈ cs, ∃ d ∈ ds, c ≤ d) : bestOf cs ≤ bestOf ds :=
  bestOf_le fun c hc => by
    obtain ⟨d, hd, hle⟩ := h c hc
    exact hle.trans (le_bestOf hd)

/-! ## The best of a set -/

/-- A confidence is a greatest one of a set, or abstention if the set is empty. -/
def IsBestOf (S : Set Confidence) (x : Confidence) : Prop :=
  IsGreatest S x ∨ S = ∅ ∧ x = .unset

variable {S T : Set Confidence} {x y : Confidence}

theorem isBestOf_bestOf (h : ∀ x, x ∈ cs ↔ x ∈ S) : IsBestOf S (bestOf cs) := by
  obtain rfl : {x | x ∈ cs} = S := Set.ext h
  rcases eq_or_ne cs [] with rfl | hne
  · exact .inr ⟨by simp, rfl⟩
  · exact .inl (isGreatest_bestOf hne)

/-- Abstentions do not matter. -/
theorem isBestOf_bestOf_of_isDefined (h : ∀ x, x ∈ S ↔ x ∈ cs ∧ x.isDefined = true) :
    IsBestOf S (bestOf cs) := by
  rcases isDefined_or_eq_unset (bestOf cs) with hdefined | hunset
  · have hmem : bestOf cs ∈ cs := by
      refine (eq_unset_or_mem_bestOf cs).resolve_left fun hunset => ?_
      rw [hunset] at hdefined
      cases hdefined
    exact .inl ⟨(h _).mpr ⟨hmem, hdefined⟩, fun x hx => le_bestOf ((h x).mp hx).1⟩
  · refine .inr ⟨Set.eq_empty_of_forall_notMem fun x hx => ?_, hunset⟩
    obtain ⟨hmem, hdefined⟩ := (h x).mp hx
    have hle := le_bestOf hmem
    rw [hunset] at hle
    rw [eq_unset_of_le hle] at hdefined
    cases hdefined

theorem IsBestOf.le (h : IsBestOf S x) (hy : y ∈ S) : y ≤ x := by
  rcases h with hgreatest | ⟨rfl, -⟩
  · exact hgreatest.2 hy
  · exact absurd hy (Set.notMem_empty y)

theorem IsBestOf.mem_of_isDefined (h : IsBestOf S x) (hx : x.isDefined = true) : x ∈ S := by
  rcases h with hgreatest | ⟨-, rfl⟩
  · exact hgreatest.1
  · cases hx

theorem IsBestOf.mono (hx : IsBestOf S x) (hy : IsBestOf T y) (h : S ⊆ T) : x ≤ y := by
  rcases hx with hgreatest | ⟨-, rfl⟩
  · exact hy.le (h hgreatest.1)
  · exact unset_le y

end Confidence

/-! ## The maximum of the children -/

namespace Aggregation

theorem foldl_best_of (v : Float) (hv : 0 ≤ v ∧ v ≤ 1) (cs : List Confidence) :
    ∃ h, cs.foldl Confidence.best (.of v hv) =
      .of ((defined cs).foldl (fun kept x => if kept < x then x else kept) v) h := by
  induction cs generalizing v with
  | nil => exact ⟨hv, rfl⟩
  | cons c cs ih =>
    cases c with
    | unset =>
      have hkept : Confidence.best (.of v hv) .unset = .of v hv := rfl
      rw [List.foldl_cons, hkept]
      exact ih v hv
    | of w hw =>
      have hdefined : defined (.of w hw :: cs) = w :: defined cs := rfl
      have hlt : Confidence.of v hv < .of w hw ↔ v < w := by
        show Confidence.compare _ _ = .lt ↔ _
        simp only [Confidence.compare]
        split
        · simp_all
        · split <;> simp_all
      rw [List.foldl_cons, hdefined, List.foldl_cons]
      by_cases h : v < w
      · rw [Confidence.best, if_pos (hlt.mpr h), if_pos h]
        exact ih w hw
      · rw [Confidence.best, if_neg (hlt.not.mpr h), if_neg h]
        exact ih v hv

/-- The maximum of the children is the best of their confidences. -/
theorem combine_max (cs : List Confidence) : max.combine cs = .ok (Confidence.bestOf cs) := by
  show confidence (extreme _ (defined cs)) = _
  induction cs with
  | nil => rfl
  | cons c cs ih =>
    cases c with
    | unset => exact ih
    | of v hv =>
      obtain ⟨h, hfold⟩ := foldl_best_of v hv cs
      have hbest : Confidence.bestOf (.of v hv :: cs) = cs.foldl Confidence.best (.of v hv) := rfl
      rw [hbest, hfold]
      simp only [decide_eq_true_eq, extreme, defined, List.filterMap_cons, Confidence.value?,
        confidence]
      exact Confidence.ofValue_eq_ok_iff.mpr ⟨h, rfl⟩

end Aggregation

end TraceRecovery
