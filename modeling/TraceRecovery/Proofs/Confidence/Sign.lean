import TraceRecovery.Heuristic.Names
import TraceRecovery.Heuristic.Paths
import TraceRecovery.Proofs.Confidence.Order
import TraceRecovery.Proofs.Double.Sign
import TraceRecovery.Proofs.Tree.Building

/-!
# Confidences without a minus sign

Scores never have a minus sign: those from names and paths are quotients of counts
(`NameMatch.isPlus_of_score_eq_ok`, `PathMatch.isPlus_of_score_eq_ok`), and a weighted mean is the
quotient of two sums that begin at zero (`Aggregation.isPlus_of_combine_weighted`). Such confidences
are equal if neither exceeds the other (`Confidence.eq_of_le_of_le`), so the best of several is the
same in any order (`Confidence.bestOf_eq_of_perm`).
-/

namespace TraceRecovery

namespace Confidence

/-- Whether the value, if there is one, has no minus sign. -/
def IsPlus : Confidence → Prop
  | unset => True
  | of v _ => Double.IsPlus v

variable {a b : Confidence} {cs ds : List Confidence}

theorem eq_of_le_of_le (ha : a.IsPlus) (hb : b.IsPlus) (hab : a ≤ b) (hba : b ≤ a) : a = b := by
  cases a with
  | unset => exact (eq_unset_of_le hba).symm
  | of v hv =>
    cases b with
    | unset => exact eq_unset_of_le hab
    | of w hw =>
      have hplace : Double.place v = Double.place w :=
        WithBot.coe_injective (le_antisymm (le_iff.mp hab) (le_iff.mp hba))
      obtain rfl := Double.eq_of_place_eq ha hb (Double.isNumber_of_le hv.1).2
        (Double.isNumber_of_le hw.1).2 hplace
      rfl

/-- Nothing exceeds the confidence of one. -/
theorem value?_eq_one_of_le (ha : a.IsPlus) (h : of 1 (by decide) ≤ a) : a.value? = some 1 := by
  have hle : a ≤ of 1 (by decide) := by
    cases a with
    | unset => exact unset_le _
    | of v hv => exact of_le_of_iff.mpr hv.2
  have hone : (of 1 (by decide)).IsPlus := Double.isPlus_one
  rw [eq_of_le_of_le ha hone hle h]
  rfl

theorem isPlus_of_ofValue {v : Float} (hv : Double.IsPlus v) (h : ofValue v = .ok a) :
    a.IsPlus := by
  obtain ⟨-, rfl⟩ := ofValue_eq_ok_iff.mp h
  exact hv

theorem isPlus_bestOf (h : ∀ c ∈ cs, c.IsPlus) : (bestOf cs).IsPlus := by
  rcases eq_unset_or_mem_bestOf cs with he | hm
  · exact he ▸ trivial
  · exact h _ hm

theorem bestOf_eq_of_perm (hp : cs.Perm ds) (h : ∀ c ∈ cs, c.IsPlus) : bestOf cs = bestOf ds :=
  eq_of_le_of_le (isPlus_bestOf h) (isPlus_bestOf fun c hc => h c (hp.mem_iff.mpr hc))
    (bestOf_le_bestOf fun c hc => ⟨c, hp.mem_iff.mp hc, le_rfl⟩)
    (bestOf_le_bestOf fun c hc => ⟨c, hp.mem_iff.mpr hc, le_rfl⟩)

end Confidence

/-! ## Ratios -/

namespace Name

variable (needle haystack : List String)

theorem isPlus_lengthRatio : Double.IsPlus (lengthRatio needle haystack) := by
  have hquotient := Double.isPlus_div (Double.isPlus_ofNat needle.length)
    (Double.isPlus_ofNat haystack.length)
  unfold lengthRatio lesser
  split
  · exact Double.isPlus_zero
  · split
    · exact Double.isPlus_one
    · exact hquotient

theorem isPlus_containedRatio : Double.IsPlus (containedRatio needle haystack) := by
  unfold containedRatio
  split
  · exact Double.isPlus_zero
  · exact Double.isPlus_div (Double.isPlus_ofNat _) (Double.isPlus_ofNat _)

end Name

variable {c : Candidate} {x : Confidence}

namespace NameMatch

variable {scope : NameScope} {p : Name.Preprocessor}

theorem isPlus_of_scoreName {w : Wanted} {name : CodeName}
    (h : scoreName scope p w name = .ok x) : x.IsPlus := by
  have hratio := fun words =>
    Confidence.isPlus_of_ofValue (a := x) (Name.isPlus_lengthRatio words (p.words name.name))
  unfold scoreName at h
  dsimp only at h
  split at h
  · split at h
    · exact Confidence.isPlus_of_ofValue Double.isPlus_one h
    · exact hratio _ h
  · split at h
    · split at h
      · exact hratio _ h
      · exact Except.ok.inj h ▸ trivial
    · exact Except.ok.inj h ▸ trivial

theorem isPlus_of_score_eq_ok (h : score scope p c = .ok x) : x.IsPlus := by
  unfold score at h
  split at h
  · obtain ⟨xs, hxs, h⟩ := Fallible.bind_eq_ok_iff.mp h
    rw [← Except.ok.inj h]
    refine Confidence.isPlus_bestOf fun y hy => ?_
    obtain ⟨name, -, hname⟩ := Fallible.exists_of_mem_mapM hxs hy
    exact isPlus_of_scoreName hname
  · exact Except.ok.inj h ▸ trivial

end NameMatch

theorem PathMatch.isPlus_of_score_eq_ok {context : Context} (h : score c context = .ok x) :
    x.IsPlus := by
  unfold score at h
  split at h
  · exact Except.ok.inj h ▸ trivial
  · dsimp only at h
    split at h
    · exact Except.ok.inj h ▸ trivial
    · exact Confidence.isPlus_of_ofValue (Name.isPlus_containedRatio _ _) h

/-! ## Weighted means -/

namespace Aggregation

theorem isPlus_clamp {x : Float} (h : Double.IsPlus x) : Double.IsPlus (clamp x) := by
  have hlower : Double.IsPlus (if x < 0 then 0 else x) := by
    split
    · exact Double.isPlus_zero
    · exact h
  show Double.IsPlus (if 1 < (if x < 0 then 0 else x) then 1 else (if x < 0 then 0 else x))
  generalize (if x < 0 then 0 else x) = y at hlower
  split
  · exact Double.isPlus_one
  · exact hlower

theorem nonneg_of_mem_definedWithWeights {cs : List Confidence} {ws : List Float}
    (hws : ∀ w ∈ ws, 0 ≤ w) {e : Float × Float} (he : e ∈ definedWithWeights cs ws) :
    0 ≤ e.1 ∧ 0 ≤ e.2 := by
  obtain ⟨⟨c, w⟩, hp, he⟩ := List.mem_filterMap.mp he
  cases c with
  | unset => cases he
  | of v hv =>
    rw [← Option.some.inj he]
    exact ⟨hv.1, hws w (List.of_mem_zip hp).2⟩

theorem isPlus_of_combine_weighted {weights : List Float} {cs : List Confidence}
    (h : (weighted weights).combine cs = .ok x) : x.IsPlus := by
  obtain ⟨⟨⟩, hvalid, h⟩ := Fallible.bind_eq_ok_iff.mp h
  have hweights := fun w hw => (((validate_eq_ok_iff.mp hvalid).2 _ rfl).2 w hw).2
  have hnonneg : ∀ e ∈ definedWithWeights cs weights, 0 ≤ e.1 ∧ 0 ≤ e.2 :=
    fun e he => nonneg_of_mem_definedWithWeights hweights he
  dsimp only at h
  split at h
  · exact Except.ok.inj h ▸ trivial
  · refine Confidence.isPlus_of_ofValue (isPlus_clamp (Double.isPlus_div ?sum ?total)) h
    case sum =>
      exact List.foldlRecOn _ _ Double.isPlus_zero fun s hs e he =>
        Double.isPlus_add_mul hs (hnonneg e he).1 (hnonneg e he).2
    case total =>
      exact List.foldlRecOn _ _ Double.isPlus_zero fun t ht e he =>
        Double.isPlus_add ht (hnonneg e he).2

end Aggregation

end TraceRecovery
