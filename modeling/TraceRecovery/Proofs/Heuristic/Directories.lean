import TraceRecovery.Proofs.Confidence.Range
import TraceRecovery.Proofs.Double.Quotient
import TraceRecovery.Proofs.Standard.Nodes

/-!
# Words of an item on a unit's path

The score by paths follows from a single count: how many words of the item's name are words of a
directory that counts (`PathMatch.found`). Which directories count depends on the unit's package and
on the packages that are declared (`PathMatch.Counts`). So a longer path only adds to the count,
more packages only take away from it, and it is all the same in which order directories come and how
often (`PathMatch.share_of_words_on_path`).
-/

namespace TraceRecovery

open Double (IsShare)

namespace PathMatch

variable {a a' : Architecture} {code code' : Code} {u u' : CodeUnit} {i : Item} {c : Candidate}
  {k : Context} {w segment : String} {x y : Confidence}

/-! ## Words on a path -/

/-- A directory of a unit counts unless the unit is in a package and the directory is called like a
package that is declared, in whatever case. -/
def Counts (code : Code) (u : CodeUnit) (segment : String) : Prop :=
  u.package = none ∨ ∀ p ∈ code.packages, Text.lower p.name ≠ Text.lower segment

instance : Decidable (Counts code u segment) := inferInstanceAs (Decidable (_ ∨ _))

/-- A word of a directory that counts. -/
def OnPath (code : Code) (u : CodeUnit) (w : String) : Prop :=
  ∃ segment ∈ u.path, Counts code u segment ∧ w ∈ Name.words segment

instance : Decidable (OnPath code u w) := inferInstanceAs (Decidable (∃ segment ∈ u.path, _))

/-- How many words of the item's name are on the unit's path, each as often as the name has it. -/
def found (code : Code) (c : Candidate) : ℕ :=
  (Name.words c.item.name).countP fun w => OnPath code c.unit w

theorem OnPath.mono (hpackage : u.package = u'.package) (hpath : u.path ⊆ u'.path)
    (hpackages : u'.package = none ∨ code'.packages ⊆ code.packages) (h : OnPath code u w) :
    OnPath code' u' w := by
  obtain ⟨segment, hsegment, hcounts, hw⟩ := h
  refine ⟨segment, hpath hsegment, ?_, hw⟩
  rcases hpackages with hnone | hsub
  · exact .inl hnone
  · exact hcounts.imp (fun hnone => hpackage ▸ hnone) fun hall p hp => hall p (hsub hp)

theorem found_mono (h : ∀ w, OnPath code u w → OnPath code' u' w) :
    found code ⟨i, u⟩ ≤ found code' ⟨i, u'⟩ :=
  List.countP_mono_left fun w _ hw => decide_eq_true (h w (of_decide_eq_true hw))

theorem found_congr (h : ∀ w, OnPath code u w ↔ OnPath code' u' w) :
    found code ⟨i, u⟩ = found code' ⟨i, u'⟩ :=
  (found_mono fun w => (h w).mp).antisymm (found_mono fun w => (h w).mpr)

theorem found_le_length : found code c ≤ (Name.words c.item.name).length := List.countP_le_length

theorem mem_pathWords :
    w ∈ pathWords (Context.ofModels a code).packageNames u ↔ OnPath code u w := by
  have hname : ∀ s, s ∈ (Context.ofModels a code).packageNames ↔
      ∃ p ∈ code.packages, Text.lower p.name = s := fun s => by
    simp only [Context.ofModels, SortedSet.mem_ofList, List.mem_map]
  have hcounts : ∀ segment, (!(u.hasPackage && (Context.ofModels a code).packageNames.contains
      (Text.lower segment))) = true ↔ Counts code u segment := fun segment => by
    rw [Bool.not_eq_true', Bool.and_eq_false_iff, ← Bool.not_eq_true (SortedSet.contains _ _),
      SortedSet.contains_iff, hname, Counts, CodeUnit.hasPackage, Option.isSome_eq_false_iff,
      Option.isNone_iff_eq_none]
    simp
  simp only [pathWords, considered, List.mem_flatMap, List.mem_filter, hcounts, OnPath, and_assoc]

/-! ## Scores -/

section Score

variable (hk : k.packageNames = (Context.ofModels a code).packageNames)

include hk

theorem containedRatio_pathWords (hwords : Name.words c.item.name ≠ []) :
    Name.containedRatio (Name.words c.item.name) (pathWords k.packageNames c.unit) =
      Float.ofNat (found code c) / Float.ofNat (Name.words c.item.name).length := by
  have hcount : (Name.words c.item.name).countP (pathWords k.packageNames c.unit).contains =
      found code c := by
    refine List.countP_congr fun w _ => ?_
    rw [List.contains_iff_mem, hk, mem_pathWords, decide_eq_true_iff]
  rw [Name.containedRatio, if_neg (by simpa using hwords), hcount]

/-- The score follows from what is found. -/
theorem score_eq (hname : c.item.name.length < 2 ^ 64) : score c k =
    if c.item.hasSignatures = true ∨ found code c = 0 then .ok .unset
    else Confidence.ofValue
      (Float.ofNat (found code c) / Float.ofNat (Name.words c.item.name).length) := by
  by_cases hi : c.item.hasSignatures = true
  · rw [score, if_pos hi, if_pos (.inl hi)]
  have hlength := (Name.length_words_le c.item.name).trans_lt hname
  -- The test is on the rounded quotient, which must not be zero where something is found.
  have hzero : (Name.containedRatio (Name.words c.item.name)
      (pathWords k.packageNames c.unit) == 0) = true ↔ found code c = 0 := by
    by_cases hwords : Name.words c.item.name = []
    · rw [found, hwords]
      exact iff_of_true (show ((0 : Float) == 0) = true by decide) rfl
    · rw [containedRatio_pathWords hk hwords]
      exact Double.ofNat_div_beq_zero_iff (found_le_length.trans_lt hlength)
        (List.length_pos_iff.mpr hwords) hlength
  rw [score, if_neg hi]
  dsimp only
  by_cases hfound : found code c = 0
  · rw [if_pos (hzero.mpr hfound), if_pos (.inr hfound)]
  · have hwords : Name.words c.item.name ≠ [] := fun hnil => by
      rw [found, hnil] at hfound
      exact hfound rfl
    rw [if_neg (hzero.not.mpr hfound), if_neg (not_or.mpr ⟨hi, hfound⟩),
      containedRatio_pathWords hk hwords]

/-- Nothing found leaves the candidate open; else what is found makes up a share of the words. -/
theorem exists_score_eq_share (hname : c.item.name.length < 2 ^ 64) : ∃ x, score c k = .ok x ∧
    (c.item.hasSignatures = true ∨ found code c = 0 → x = .unset) ∧
    (c.item.hasSignatures = false → 0 < found code c → ∃ v, x.value? = some v ∧
      IsShare (found code c) (Name.words c.item.name).length v) := by
  rw [score_eq hk hname]
  split
  · rename_i hunset
    refine ⟨_, rfl, fun _ => rfl, fun hi hpos => ?_⟩
    rcases hunset with hi' | hzero
    · exact absurd (hi.symm.trans hi') Bool.false_ne_true
    · exact absurd hzero hpos.ne'
  · rename_i hdefined
    have hle : found code c ≤ (Name.words c.item.name).length := found_le_length
    have hlength := (Name.length_words_le c.item.name).trans_lt hname
    have hpos := (Nat.pos_of_ne_zero (not_or.mp hdefined).2).trans_le hle
    exact ⟨_, Confidence.ofValue_eq_ok_iff.mpr ⟨Double.ofNat_div_mem hle hpos hlength, rfl⟩,
      fun hunset => absurd hunset hdefined,
      fun _ _ => ⟨_, rfl, Double.isShare_ofNat_div hle hpos hlength⟩⟩

/-- The more is found, the higher is the score. -/
theorem score_mono {k' : Context}
    (hk' : k'.packageNames = (Context.ofModels a' code').packageNames)
    (hname : i.name.length < 2 ^ 64) (hle : ∀ w, OnPath code u w → OnPath code' u' w)
    (h : score ⟨i, u⟩ k = .ok x) (h' : score ⟨i, u'⟩ k' = .ok y) : x ≤ y := by
  rw [score_eq (c := ⟨i, u⟩) hk hname] at h
  rw [score_eq (c := ⟨i, u'⟩) hk' hname] at h'
  split at h
  · exact Except.ok.inj h ▸ Confidence.unset_le y
  · rename_i hdefined
    have hfound := found_mono (i := i) hle
    have hpos := Nat.pos_of_ne_zero (not_or.mp hdefined).2
    have hlength := (Name.length_words_le i.name).trans_lt hname
    rw [if_neg (not_or.mpr ⟨(not_or.mp hdefined).1, (hpos.trans_le hfound).ne'⟩)] at h'
    obtain ⟨hx, rfl⟩ := Confidence.ofValue_eq_ok_iff.mp h
    obtain ⟨hy, rfl⟩ := Confidence.ofValue_eq_ok_iff.mp h'
    exact Confidence.of_le_of_iff.mpr (Double.ofNat_div_mono hfound
      (found_le_length.trans_lt hlength) (hpos.trans_le found_le_length) hlength)

theorem score_congr {k' : Context}
    (hk' : k'.packageNames = (Context.ofModels a' code').packageNames)
    (hname : i.name.length < 2 ^ 64) (h : ∀ w, OnPath code u w ↔ OnPath code' u' w) :
    score ⟨i, u⟩ k = score ⟨i, u'⟩ k' := by
  rw [score_eq (c := ⟨i, u⟩) hk hname, score_eq (c := ⟨i, u'⟩) hk' hname, found_congr h]

end Score

/-- Every candidate can be scored by its path, whatever other tables can be read. Interfaces that
declare methods and candidates of which nothing is found are left open; all others get the share of
the words that are found. Further directories never lower the score. Further packages never raise it
and are of no concern to a unit outside packages. In which order directories come, and how often,
does not matter. -/
theorem share_of_words_on_path (a : Architecture) (code : Code) (others : List Table)
    (hname : c.item.name.length < 2 ^ 64) :
    let score := fun code c =>
      Heuristic.byPath.score c { Context.ofModels a code with dependencies := others }
    ∃ x, score code c = .ok x ∧
      (c.item.hasSignatures = true ∨ found code c = 0 → x = .unset) ∧
      (c.item.hasSignatures = false → 0 < found code c → ∃ v, x.value? = some v ∧
        IsShare (found code c) (Name.words c.item.name).length v) ∧
      (∀ path, c.unit.path ⊆ path →
        ∃ y, score code ⟨c.item, c.unit.withPath path⟩ = .ok y ∧ x ≤ y) ∧
      (∀ code', code.packages ⊆ code'.packages → ∃ y, score code' c = .ok y ∧ y ≤ x) ∧
      (∀ code', c.unit.package = none → score code' c = .ok x) ∧
      ∀ path, (∀ segment, segment ∈ path ↔ segment ∈ c.unit.path) →
        score code ⟨c.item, c.unit.withPath path⟩ = .ok x := by
  intro score
  have hk : ∀ code, { Context.ofModels a code with dependencies := others }.packageNames =
      (Context.ofModels a code).packageNames := fun _ => rfl
  have hsame := List.Subset.refl code.packages
  obtain ⟨x, hx, hunset, hshare⟩ := exists_score_eq_share (hk code) hname
  refine ⟨x, hx, hunset, hshare, fun path hpath => ?_, fun code' hsub => ?_, fun code' hnone => ?_,
    fun path hpath => ?_⟩
  · obtain ⟨y, hy, -⟩ := exists_score_eq_share (hk code) (c := ⟨c.item, c.unit.withPath path⟩) hname
    have hmore : ∀ w, OnPath code c.unit w → OnPath code (c.unit.withPath path) w := fun w =>
      .mono rfl hpath (.inr hsame)
    exact ⟨y, hy, score_mono (hk code) (hk code) hname hmore hx hy⟩
  · obtain ⟨y, hy, -⟩ := exists_score_eq_share (hk code') hname
    have hless : ∀ w, OnPath code' c.unit w → OnPath code c.unit w := fun w =>
      .mono rfl (List.Subset.refl _) (.inr hsub)
    exact ⟨y, hy, score_mono (hk code') (hk code) hname hless hy hx⟩
  · have hall : ∀ w, OnPath code' c.unit w ↔ OnPath code c.unit w := fun w =>
      ⟨.mono rfl (List.Subset.refl _) (.inl hnone), .mono rfl (List.Subset.refl _) (.inl hnone)⟩
    exact (score_congr (hk code') (hk code) hname hall).trans hx
  · have hall : ∀ w, OnPath code (c.unit.withPath path) w ↔ OnPath code c.unit w := fun w =>
      ⟨.mono rfl (fun s => (hpath s).mp) (.inr hsame),
        .mono rfl (fun s => (hpath s).mpr) (.inr hsame)⟩
    exact (score_congr (hk code) (hk code) hname hall).trans hx

open OrderDesk in
/-- One of the two words is the name of a directory, the other one that of a package. A further
directory does no harm. -/
theorem share_of_words_on_path_orderDesk : ∃ x v y,
    Heuristic.byPath.score ⟨.component "i" "ShopOrders", orderUnit.withPath ["shop", "orders"]⟩
      (.ofModels architecture OrderDesk.code) = .ok x ∧ x.value? = some v ∧ IsShare 1 2 v ∧
    Heuristic.byPath.score
      ⟨.component "i" "ShopOrders", orderUnit.withPath ["shop", "orders", "archive"]⟩
      (.ofModels architecture OrderDesk.code) = .ok y ∧ x ≤ y := by
  obtain ⟨x, hx, -, hshare, hpath, -⟩ := share_of_words_on_path
    (c := ⟨.component "i" "ShopOrders", orderUnit.withPath ["shop", "orders"]⟩)
    architecture OrderDesk.code [] (by decide +kernel)
  obtain ⟨v, hv, hv'⟩ := hshare rfl (by decide +kernel)
  obtain ⟨y, hy, hle⟩ := hpath ["shop", "orders", "archive"] (by decide)
  exact ⟨x, v, y, hx, hv, hv', hy, hle⟩

end PathMatch

end TraceRecovery
