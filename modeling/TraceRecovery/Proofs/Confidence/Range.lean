import TraceRecovery.Proofs.Confidence.Sign
import TraceRecovery.Proofs.Double.Counts

/-!
# Scores in range

A name has at most as many words as characters (`Name.length_words_le`), and quotients of such
counts are between zero and one (`Name.lengthRatio_mem`, `Name.containedRatio_mem`). So names and
paths can be scored whatever they are (`NameMatch.exists_score_eq_ok`,
`PathMatch.exists_score_eq_ok`), as long as no name is too long for its characters to be counted in
64 bits.
-/

namespace TraceRecovery

namespace Name

variable {needle haystack : List String} {name : String}

/-! ## Words -/

namespace WordReader

variable (r : WordReader)

theorem length_flush_le : r.ended.length ≤ r.flush.ended.length ∧
    r.flush.ended.length ≤ r.ended.length + 1 := by
  unfold flush
  split
  · exact ⟨Nat.le_refl _, Nat.le_succ _⟩
  · simp

/-- A character begins at most one word. -/
theorem length_flush_read_le (c : Char) (next? : Option Char) :
    (r.read c next?).flush.ended.length ≤ r.flush.ended.length + 1 := by
  unfold read
  split
  · refine (length_flush_le _).2.trans (Nat.succ_le_succ ?_)
    dsimp only
    split
    · exact Nat.le_refl _
    · exact r.length_flush_le.1
  · rw [flush_of_nil current_flush]
    exact Nat.le_succ _

theorem length_flush_readAll_le (cs : List Char) :
    (r.readAll cs).flush.ended.length ≤ r.flush.ended.length + cs.length := by
  induction cs generalizing r with
  | nil => exact Nat.le_refl _
  | cons c rest ih =>
    rw [readAll, List.length_cons]
    have hread := r.length_flush_read_le c rest.head?
    have hrest := ih (r.read c rest.head?)
    omega

end WordReader

theorem length_words_le (name : String) : (words name).length ≤ name.length := by
  have h := WordReader.start.length_flush_readAll_le name.toList
  rwa [String.length_toList, show WordReader.start.flush.ended.length = 0 from rfl, Nat.zero_add] at h

theorem Preprocessor.length_words_lt (p : Preprocessor) (h : name.length < 2 ^ 64) :
    (p.words name).length < 2 ^ 64 := by
  have hwords := (length_words_le name).trans_lt h
  have hkept : (wordsExcept p.stopWords.contains name).length < 2 ^ 64 :=
    (List.length_filter_le _ _).trans_lt hwords
  unfold Preprocessor.words
  cases p.method with
  | whole =>
    dsimp only
    split <;> simp
  | split => exact hwords
  | splitFiltered =>
    dsimp only
    split
    · exact hwords
    · exact hkept

/-! ## Ratios -/

theorem lengthRatio_mem (hn : needle.length < 2 ^ 64) (hh : haystack.length < 2 ^ 64) :
    0 ≤ lengthRatio needle haystack ∧ lengthRatio needle haystack ≤ 1 := by
  unfold lengthRatio
  split
  · decide
  · rename_i hne
    simp only [Bool.or_eq_true, List.isEmpty_iff, not_or] at hne
    have hnumber := Double.isNumber_ofNat_div (List.length_pos_iff.mpr hne.1) hn
      (List.length_pos_iff.mpr hne.2) hh
    have hplus := Double.isPlus_div (Double.isPlus_ofNat needle.length)
      (Double.isPlus_ofNat haystack.length)
    unfold lesser
    split
    · decide
    · exact ⟨Double.nonneg_of_notBelowZero (.unsigned hplus) hnumber,
        (Double.not_lt_iff (Double.isNumber_of_isFinite rfl) hnumber).mp ‹_›⟩

theorem containedRatio_mem (hn : needle.length < 2 ^ 64) :
    0 ≤ containedRatio needle haystack ∧ containedRatio needle haystack ≤ 1 := by
  unfold containedRatio
  split
  · decide
  · rename_i hne
    have hpos : 0 < needle.length := List.length_pos_iff.mpr (by simpa using hne)
    exact Double.ofNat_div_mem List.countP_le_length hpos hn

end Name

/-! ## Scores -/

theorem Confidence.exists_ofValue_eq_ok {v : Float} (h : 0 ≤ v ∧ v ≤ 1) :
    ∃ x, ofValue v = .ok x :=
  ⟨_, ofValue_eq_ok_iff.mpr ⟨h, rfl⟩⟩

/-- No name of a candidate is too long for its characters to be counted in 64 bits. -/
structure Candidate.NamesFit (c : Candidate) : Prop where
  item : c.item.name.length < 2 ^ 64
  unit : ∀ name ∈ c.unit.codeNames, name.name.length < 2 ^ 64

variable {c : Candidate}

namespace NameMatch

variable {scope : NameScope} {p : Name.Preprocessor}

theorem length_le_of_withoutInterfaceMark? {name rest : String}
    (h : withoutInterfaceMark? name = some rest) : rest.length ≤ name.length := by
  rw [← String.length_toList, ← String.length_toList]
  unfold withoutInterfaceMark? at h
  split at h
  · rename_i hname
    split at h
    · rw [← Option.some.inj h, hname, String.toList_ofList]
      exact Nat.le_succ _
    · cases h
  · cases h

theorem length_fallback_lt {item : Item} (h : item.name.length < 2 ^ 64) :
    ∀ words ∈ (wanted scope p item).fallback, words.length < 2 ^ 64 := by
  intro words hwords
  unfold wanted at hwords
  dsimp only at hwords
  split at hwords
  · obtain ⟨rest, hrest, rfl⟩ := Option.map_eq_some_iff.mp hwords
    exact p.length_words_lt ((length_le_of_withoutInterfaceMark? hrest).trans_lt h)
  · cases hwords

theorem exists_scoreName_eq_ok {item : Item} {name : CodeName} (hitem : item.name.length < 2 ^ 64)
    (hname : name.name.length < 2 ^ 64) :
    ∃ x, scoreName scope p (wanted scope p item) name = .ok x := by
  have hratio : ∀ words : List String, words.length < 2 ^ 64 →
      ∃ x, Confidence.ofValue (Name.lengthRatio words (p.words name.name)) = .ok x := fun words h =>
    Confidence.exists_ofValue_eq_ok (Name.lengthRatio_mem h (p.length_words_lt hname))
  unfold scoreName
  dsimp only
  split
  · split
    · exact Confidence.exists_ofValue_eq_ok (by decide)
    · exact hratio _ (p.length_words_lt hitem)
  · split
    · rename_i words hwords
      split
      · exact hratio _ (length_fallback_lt hitem words hwords)
      · exact ⟨_, rfl⟩
    · exact ⟨_, rfl⟩

/-- Names can be scored whatever they are. -/
theorem exists_score_eq_ok (h : c.NamesFit) : ∃ x, score scope p c = .ok x := by
  unfold score
  split
  · have hall : ∀ name ∈ c.unit.codeNames,
        ∃ x, scoreName scope p (wanted scope p c.item) name = .ok x :=
      fun name hname => exists_scoreName_eq_ok h.item (h.unit name hname)
    obtain ⟨xs, hxs⟩ := Fallible.exists_mapM_eq_ok_iff.mpr hall
    exact ⟨_, Fallible.bind_eq_ok_iff.mpr ⟨xs, hxs, rfl⟩⟩
  · exact ⟨_, rfl⟩

end NameMatch

/-- Names can be compared with paths whatever both are. -/
theorem PathMatch.exists_score_eq_ok {context : Context} (h : c.NamesFit) :
    ∃ x, score c context = .ok x := by
  unfold score
  split
  · exact ⟨_, rfl⟩
  · dsimp only
    split
    · exact ⟨_, rfl⟩
    · exact Confidence.exists_ofValue_eq_ok
        (Name.containedRatio_mem ((Name.length_words_le _).trans_lt h.item))

end TraceRecovery
