import Mathlib.Data.List.Chain
import Mathlib.Data.List.Forall2
import Mathlib.Data.List.TakeWhile
import TraceRecovery.Text.Letter

/-!
# Letters of either case

Every lower-case letter is a letter (`Text.isAlphabetic_of_isLowercase`), and none is an upper-case
letter as well (`Text.isLowercase_eq_false_of_isUppercase`). The classes are tables with hundreds of
runs, so neither is decided by comparing every run with every other one: as the tables ascend, one
pass along both is enough (`Run.allWithin`, `Run.noneShared`). Letters of ASCII are among the first
runs of each table (`Text.ascii_lower`, `Text.ascii_upper`).
-/

namespace TraceRecovery.Text

/-! ## Runs in ascending order -/

namespace Run

variable {r s : Run} {rs ss : List Run} {n : Nat}

/-- Whether some runs are listed by where they begin. -/
def Ascending (rs : List Run) : Prop := rs.IsChain fun r s => r.first ≤ s.first

instance : Decidable (Ascending rs) := inferInstanceAs (Decidable (List.IsChain _ _))

theorem first_le_of_has (h : r.has n = true) : r.first ≤ n := by
  simp only [has, Bool.and_eq_true, decide_eq_true_eq] at h
  exact h.1.1

theorem le_last_of_has (h : r.has n = true) : n ≤ r.last := by
  simp only [has, Bool.and_eq_true, decide_eq_true_eq] at h
  exact h.1.2

theorem Ascending.pairwise (h : Ascending rs) : rs.Pairwise fun r s => r.first ≤ s.first :=
  have : IsTrans Run fun r s => r.first ≤ s.first := ⟨fun _ _ _ => Nat.le_trans⟩
  List.isChain_iff_pairwise.mp h

theorem exists_of_covers (h : covers rs n = true) : ∃ r ∈ rs, r.has n = true := by
  induction rs with
  | nil => cases h
  | cons r rs ih =>
    unfold covers at h
    split at h
    · cases h
    · rcases Bool.or_eq_true_iff.mp h with h | h
      · exact ⟨r, List.mem_cons_self, h⟩
      · obtain ⟨s, hs, hn⟩ := ih h
        exact ⟨s, List.mem_cons_of_mem _ hs, hn⟩

/-- A code point that lies on one of the runs of an ascending list is found. -/
theorem covers_of_mem (hrs : Ascending rs) (hr : r ∈ rs) (hn : r.has n = true) :
    covers rs n = true := by
  have hsorted := hrs.pairwise
  clear hrs
  induction hsorted with
  | nil => cases hr
  | @cons s ss hle _ ih =>
    unfold covers
    rcases List.mem_cons.mp hr with rfl | hr
    · rw [if_neg (Nat.not_lt.mpr (first_le_of_has hn)), hn]
      rfl
    · rw [if_neg (Nat.not_lt.mpr ((hle r hr).trans (first_le_of_has hn))), ih hr, Bool.or_true]

/-! ## One table within another -/

/-- Whether all code points of a run lie on another one without gaps. -/
def within (r s : Run) : Bool := s.first ≤ r.first && r.last ≤ s.last && s.step == 1

theorem has_of_within (h : r.within s = true) (hn : r.has n = true) : s.has n = true := by
  simp only [within, Bool.and_eq_true, decide_eq_true_eq, beq_iff_eq] at h
  obtain ⟨⟨hfirst, hlast⟩, hstep⟩ := h
  have hlow := first_le_of_has hn
  have hhigh := le_last_of_has hn
  simp only [has, hstep, Nat.mod_one, Bool.and_eq_true, decide_eq_true_eq, beq_self_eq_true,
    and_true]
  omega

/-- Whether each of some runs lies on one of others; both lists ascend. -/
def allWithin : List Run → List Run → Bool
  | rs, [] => rs.isEmpty
  | rs, s :: ss => allWithin (rs.dropWhile fun r => r.within s) ss

theorem exists_within (h : allWithin rs ss = true) (hr : r ∈ rs) :
    ∃ s ∈ ss, r.within s = true := by
  induction ss generalizing rs with
  | nil =>
    rw [List.isEmpty_iff.mp h] at hr
    cases hr
  | cons s ss ih =>
    rw [← List.takeWhile_append_dropWhile (p := fun r => r.within s) (l := rs)] at hr
    rcases List.mem_append.mp hr with hr | hr
    · exact ⟨s, List.mem_cons_self, List.mem_takeWhile_imp (p := fun r : Run => r.within s) hr⟩
    · obtain ⟨t, ht, hw⟩ := ih h hr
      exact ⟨t, List.mem_cons_of_mem _ ht, hw⟩

theorem covers_of_allWithin (hss : Ascending ss) (h : allWithin rs ss = true)
    (hn : covers rs n = true) : covers ss n = true := by
  obtain ⟨r, hr, hn⟩ := exists_of_covers hn
  obtain ⟨s, hs, hw⟩ := exists_within h hr
  exact covers_of_mem hss hs (has_of_within hw hn)

/-! ## Two tables without a common code point -/

/-- Whether the code points of a run are all even or all odd. -/
def keepsParity (r : Run) : Bool := r.step == 2 || r.first == r.last

theorem mod_two_of_keepsParity (h : r.keepsParity = true) (hn : r.has n = true) :
    n % 2 = r.first % 2 := by
  have hlow := first_le_of_has hn
  have hhigh := le_last_of_has hn
  simp only [keepsParity, Bool.or_eq_true, beq_iff_eq] at h
  rcases h with h | h
  · simp only [has, h, Bool.and_eq_true, beq_iff_eq] at hn
    omega
  · omega

/-- Whether two runs are seen to have no common code point: one ends before the other begins, or one
is even and the other odd. -/
def apart (r s : Run) : Bool :=
  r.last < s.first || s.last < r.first ||
    (r.keepsParity && s.keepsParity && (r.first + s.first) % 2 == 1)

theorem not_has_of_apart (h : r.apart s = true) (hr : r.has n = true) : ¬ s.has n = true := by
  intro hs
  have hr₁ := first_le_of_has hr
  have hr₂ := le_last_of_has hr
  have hs₁ := first_le_of_has hs
  have hs₂ := le_last_of_has hs
  simp only [apart, Bool.or_eq_true, Bool.and_eq_true, decide_eq_true_eq, beq_iff_eq] at h
  rcases h with (h | h) | ⟨⟨hpr, hps⟩, h⟩
  · omega
  · omega
  · have hmr := mod_two_of_keepsParity hpr hr
    have hms := mod_two_of_keepsParity hps hs
    omega

/-- Whether no run of a list shares a code point with one of another; both lists ascend. -/
def noneShared : List Run → List Run → Bool
  | _, [] => true
  | rs, s :: ss =>
    let rest := rs.dropWhile fun r => r.last < s.first
    (rest.takeWhile fun r => r.first ≤ s.last).all (·.apart s) && noneShared rest ss

/-- Runs that end before a run begins, and all that begin after the first one that begins behind
it, do not have to be compared with it. -/
theorem not_has_of_all_apart (hrs : rs.Pairwise fun r s => r.first ≤ s.first)
    (h : (rs.takeWhile fun r => r.first ≤ s.last).all (·.apart s) = true) (hr : r ∈ rs)
    (hn : r.has n = true) : ¬ s.has n = true := by
  induction hrs with
  | nil => cases hr
  | @cons t rs hle _ ih =>
    rw [List.takeWhile_cons] at h
    split at h
    · rw [List.all_cons, Bool.and_eq_true] at h
      rcases List.mem_cons.mp hr with rfl | hr
      · exact not_has_of_apart h.1 hn
      · exact ih h.2 hr
    · rename_i hbehind
      rw [decide_eq_true_eq, Nat.not_le] at hbehind
      have hfirst : t.first ≤ r.first := by
        rcases List.mem_cons.mp hr with rfl | hr
        · exact Nat.le_refl _
        · exact hle r hr
      intro hs
      have hlow := first_le_of_has hn
      have hhigh := le_last_of_has hs
      omega

theorem not_has_of_noneShared (hrs : rs.Pairwise fun r s => r.first ≤ s.first)
    (hss : ss.Pairwise fun r s => r.first ≤ s.first) (h : noneShared rs ss = true) (hr : r ∈ rs)
    (hs : s ∈ ss) (hn : r.has n = true) : ¬ s.has n = true := by
  induction hss generalizing rs with
  | nil => cases hs
  | @cons t ss hle _ ih =>
    rw [noneShared, Bool.and_eq_true] at h
    -- No run that is dropped reaches `t`, let alone a later run.
    have hrest : t.first ≤ n → r ∈ rs.dropWhile fun r => r.last < t.first := by
      intro hlow
      rw [← List.takeWhile_append_dropWhile (p := fun r => decide (r.last < t.first)) (l := rs)] at hr
      refine (List.mem_append.mp hr).resolve_left fun hr => ?_
      have hlast := of_decide_eq_true
        (List.mem_takeWhile_imp (p := fun r : Run => decide (r.last < t.first)) hr)
      have hhigh := le_last_of_has hn
      omega
    have hsorted := hrs.sublist (List.dropWhile_sublist fun r => decide (r.last < t.first))
    rcases List.mem_cons.mp hs with rfl | hs
    · intro hsn
      exact not_has_of_all_apart hsorted h.1 (hrest (first_le_of_has hsn)) hn hsn
    · intro hsn
      exact ih hsorted h.2 (hrest ((hle s hs).trans (first_le_of_has hsn))) hs hsn

theorem covers_eq_false_of_noneShared (hrs : Ascending rs) (hss : Ascending ss)
    (h : noneShared rs ss = true) (hn : covers rs n = true) : covers ss n = false := by
  obtain ⟨r, hr, hrn⟩ := exists_of_covers hn
  refine Bool.eq_false_iff.mpr fun hc => ?_
  obtain ⟨s, hs, hsn⟩ := exists_of_covers hc
  exact not_has_of_noneShared hrs.pairwise hss.pairwise h hr hs hrn hsn

end Run

/-! ## Letters -/

variable {c : Char}

theorem isAlphabetic_of_isLowercase (h : isLowercase c = true) : isAlphabetic c = true := by
  have hwithin : Run.allWithin lowercaseRuns alphabeticRuns = true := by decide +kernel
  exact Run.covers_of_allWithin (by decide +kernel) hwithin h

theorem isAlphanumeric_of_isLowercase (h : isLowercase c = true) : isAlphanumeric c = true := by
  rw [isAlphanumeric, isAlphabetic_of_isLowercase h, Bool.true_or]

theorem isLowercase_eq_false_of_isUppercase (h : isUppercase c = true) : isLowercase c = false := by
  have hshared : Run.noneShared uppercaseRuns lowercaseRuns = true := by decide +kernel
  exact Run.covers_eq_false_of_noneShared (by decide +kernel) (by decide +kernel) hshared h

theorem isUppercase_eq_false_of_isLowercase (h : isLowercase c = true) : isUppercase c = false := by
  refine Bool.eq_false_iff.mpr fun hu => ?_
  rw [isLowercase_eq_false_of_isUppercase hu] at h
  cases h

/-! ## Letters of ASCII -/

/-- The letters are gone through one by one. -/
theorem exists_of_isLower (h : c.isLower = true) : ∃ k < 26, c = Char.ofNat (97 + k) := by
  obtain ⟨hl, hh⟩ := Bool.and_eq_true_iff.mp h
  have hlow : 97 ≤ c.toNat := UInt32.le_iff_toNat_le.mp (of_decide_eq_true hl)
  have hhigh : c.toNat ≤ 122 := UInt32.le_iff_toNat_le.mp (of_decide_eq_true hh)
  refine ⟨c.toNat - 97, by omega, ?_⟩
  rw [show 97 + (c.toNat - 97) = c.toNat by omega, Char.ofNat_toNat]

theorem ascii_lower (h : c.isLower = true) :
    isLowercase c = true ∧ c ≠ 'Σ' ∧ lowerChar c = [c] := by
  have hall : ∀ k < 26, isLowercase (Char.ofNat (97 + k)) = true ∧ Char.ofNat (97 + k) ≠ 'Σ' ∧
      lowerChar (Char.ofNat (97 + k)) = [Char.ofNat (97 + k)] := by decide +kernel
  obtain ⟨k, hk, rfl⟩ := exists_of_isLower h
  exact hall k hk

theorem ascii_upper (h : c.isLower = true) :
    isUppercase c.toUpper = true ∧ isAlphabetic c.toUpper = true ∧ c.toUpper ≠ 'Σ' ∧
      lowerChar c.toUpper = [c] := by
  have hall : ∀ k < 26, isUppercase (Char.ofNat (97 + k)).toUpper = true ∧
      isAlphabetic (Char.ofNat (97 + k)).toUpper = true ∧ (Char.ofNat (97 + k)).toUpper ≠ 'Σ' ∧
      lowerChar (Char.ofNat (97 + k)).toUpper = [Char.ofNat (97 + k)] := by decide +kernel
  obtain ⟨k, hk, rfl⟩ := exists_of_isLower h
  exact hall k hk

/-- A text is put into lower case letter by letter, apart from the capital sigma. -/
theorem lowerAfter_of_forall₂ {s t : List Char} (before : List Char)
    (h : List.Forall₂ (fun d c => d ≠ 'Σ' ∧ lowerChar d = [c]) s t) : lowerAfter before s = t := by
  induction h generalizing before with
  | nil => rfl
  | @cons d c s t hd _ ih =>
    rw [lowerAfter, if_neg hd.1, hd.2, ih]
    rfl

end TraceRecovery.Text
