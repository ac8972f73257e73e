import Mathlib.Data.Finset.Card
import TraceRecovery.Proofs.Result.Indexing

/-!
# Sealing

A seal counts the candidates that have no entry, and compares the number of entries with that of
the candidates. Neither candidates nor entries repeat, so the entries together with the candidates
that have none are as many as the candidates together with the entries for other pairs
(`IndexedTable.Indexes.size_add_missing`). The counts therefore decide whether the entries are those
of the candidates (`IndexedTable.Indexes.answer_close`), and the number of entries for other pairs
can be told from them without going below zero.
-/

namespace TraceRecovery

/-- The candidates of a space as a finite set. -/
def CandidateSpace.toFinset (s : CandidateSpace) : Finset Candidate := s.candidates.toFinset

@[simp]
theorem CandidateSpace.mem_toFinset {s : CandidateSpace} {c : Candidate} :
    c ∈ s.toFinset ↔ c ∈ s.candidates :=
  List.mem_toFinset

theorem CandidateSpace.card_toFinset (s : CandidateSpace) : s.toFinset.card = s.size :=
  List.toFinset_card_of_nodup s.nodup_candidates

namespace IndexedTable

/-- The candidates that have an entry, as a finite set. -/
def written (t : IndexedTable) : Finset Candidate := t.order.toList.toFinset

variable {t : IndexedTable} {log : List (Candidate × Confidence)}

theorem Indexes.mem_written_iff (h : t.Indexes log) {c : Candidate} :
    c ∈ t.written ↔ t.contains c = true := by
  rw [written, List.mem_toFinset, h.order_eq, h.contains_iff]

theorem Indexes.card_written (h : t.Indexes log) : t.written.card = t.size := by
  rw [written, h.order_eq, List.toFinset_card_of_nodup h.distinct, List.length_map, h.size_eq]

/-- The candidates without an entry that a seal counts. -/
theorem Indexes.missing_eq (h : t.Indexes log) (s : CandidateSpace) :
    (s.candidates.countP fun c => !t.contains c) = (s.toFinset \ t.written).card := by
  rw [List.countP_eq_length_filter, ← List.toFinset_card_of_nodup (s.nodup_candidates.filter _)]
  refine congrArg Finset.card (Finset.ext fun c => ?_)
  rw [List.mem_toFinset, List.mem_filter, Finset.mem_sdiff, CandidateSpace.mem_toFinset,
    h.mem_written_iff, Bool.not_eq_true', Bool.not_eq_true]

/-- Either way round, the candidates and the other pairs that have an entry are counted. -/
theorem Indexes.size_add_missing (h : t.Indexes log) (s : CandidateSpace) :
    t.size + (s.toFinset \ t.written).card = s.size + (t.written \ s.toFinset).card := by
  have hmissing := Finset.card_sdiff_add_card s.toFinset t.written
  have houtside := Finset.card_sdiff_add_card t.written s.toFinset
  rw [Finset.union_comm, s.card_toFinset] at houtside
  rw [h.card_written] at hmissing
  omega

/-- What a seal answers, in terms of what the entries and the candidates have in common. -/
theorem Indexes.answer_close (h : t.Indexes log) (s : CandidateSpace) :
    t.answer (.close s) =
      if t.written = s.toFinset then .ok ()
      else .error (.incomplete t.label
        (.mismatch (s.toFinset \ t.written).card s.size (t.written \ s.toFinset).card)) := by
  have hsize := h.size_add_missing s
  have houtside : t.size + (s.toFinset \ t.written).card - s.size =
      (t.written \ s.toFinset).card := by
    omega
  have hrefused : ((s.toFinset \ t.written).card > 0 || t.size != s.size) = true ↔
      t.written ≠ s.toFinset := by
    rw [Bool.or_eq_true, decide_eq_true_eq, bne_iff_ne, ← not_iff_not, not_or, not_not, not_not,
      Nat.not_lt, Nat.le_zero, Finset.card_eq_zero, Finset.sdiff_eq_empty_iff_subset]
    constructor
    · rintro ⟨hsub, hcard⟩
      refine (Finset.eq_of_subset_of_card_le hsub ?_).symm
      rw [h.card_written, s.card_toFinset, hcard]
    · intro heq
      rw [← h.card_written, ← s.card_toFinset, heq]
      exact ⟨Finset.Subset.refl _, rfl⟩
  rw [answer, Step.update, run_sealOver, h.missing_eq]
  dsimp only
  rw [houtside]
  by_cases heq : t.written = s.toFinset
  · rw [if_pos heq, if_neg (hrefused.not.mpr (not_not.mpr heq))]
  · rw [if_neg heq, if_pos (hrefused.mpr heq)]

/-! ## Tables that have only been written -/

/-- The table after some writes, whether they are accepted or refused. -/
def afterWrites (t : IndexedTable) (writes : List (Candidate × Confidence)) : IndexedTable :=
  t.after (writes.map fun e => .write e.1 e.2)

/-- An open table has an entry for each candidate that is written, be it a new one or an old. -/
theorem Indexes.written_next (h : t.Indexes log) (hopen : t.isSealed = false) (c : Candidate)
    (x : Confidence) : (t.next (.write c x)).written = insert c t.written := by
  rw [IndexedTable.next, Step.update, run_set, hopen, if_neg Bool.false_ne_true]
  by_cases hc : t.contains c = true
  · rw [if_pos hc]
    exact (Finset.insert_eq_of_mem (h.mem_written_iff.mpr hc)).symm
  · rw [if_neg hc, written, order_withEntry, Array.toList_push, List.toFinset_append,
      Finset.union_comm]
    rfl

theorem isSealed_next_write (t : IndexedTable) (c : Candidate) (x : Confidence) :
    (t.next (.write c x)).isSealed = t.isSealed := by
  rw [Bool.eq_iff_iff, isSealed_next]
  simp

/-- Writes leave an open table open, with an entry for each candidate that has been tried. -/
theorem Indexes.written_afterWrites (h : t.Indexes log) (hopen : t.isSealed = false)
    (writes : List (Candidate × Confidence)) :
    (t.afterWrites writes).isSealed = false ∧
      (t.afterWrites writes).written = t.written ∪ (writes.map Prod.fst).toFinset := by
  -- The first write keeps the table open, so that the others are made on an open table again.
  induction writes generalizing t log with
  | nil => exact ⟨hopen, (Finset.union_empty _).symm⟩
  | cons e writes ih =>
    obtain ⟨hopen', hwritten⟩ :=
      ih (h.next (.write e.1 e.2)) ((isSealed_next_write t e.1 e.2).trans hopen)
    refine ⟨hopen', hwritten.trans ?_⟩
    rw [h.written_next hopen, List.map_cons, List.toFinset_cons, Finset.insert_union,
      Finset.union_insert]

/-- Whatever has been written into an empty table, and however often, the table has an entry for
each candidate that has been tried. It can be sealed over a space exactly if these are the
candidates of the space. Otherwise it is the number of candidates without an entry that is reported,
and the number of entries for pairs that are no candidates. The latter is found as a difference,
which never is below zero. A table that is not sealed can still be written. -/
theorem seal_counts_exactly (label : String) (writes : List (Candidate × Confidence))
    (s : CandidateSpace) :
    let t := (empty label).afterWrites writes
    let missing := (s.toFinset \ t.written).card
    let outside := (t.written \ s.toFinset).card
    (∀ c, t.contains c = true ↔ c ∈ t.written) ∧
      t.written = (writes.map Prod.fst).toFinset ∧
      (t.answer (.close s) = .ok () ↔ t.written = s.toFinset) ∧
      (∀ e, t.answer (.close s) = .error e ↔ t.written ≠ s.toFinset ∧
        e = .incomplete label (.mismatch missing s.size outside)) ∧
      (s.candidates.countP fun c => !t.contains c) = missing ∧
      s.size ≤ t.size + missing ∧ t.size + missing - s.size = outside ∧
      t.next (.close s) = { t with isSealed := decide (t.written = s.toFinset) } := by
  intro t missing outside
  have hindexes := (indexes_empty label).after (writes.map fun e => .write e.1 e.2)
  have hlabel : t.label = label := label_after (empty label) _
  obtain ⟨hopen, hwritten⟩ := (indexes_empty label).written_afterWrites rfl writes
  have hanswer : t.answer (.close s) =
      if t.written = s.toFinset then .ok ()
      else .error (.incomplete label (.mismatch missing s.size outside)) := by
    rw [← hlabel]
    exact hindexes.answer_close s
  have hsize : t.size + missing = s.size + outside := hindexes.size_add_missing s
  refine ⟨fun c => hindexes.mem_written_iff.symm, ?_, ?_, fun e => ?_, hindexes.missing_eq s,
    by omega, by omega, ?_⟩
  · exact hwritten.trans (Finset.empty_union _)
  · rw [hanswer]
    split_ifs with heq <;> simp [heq]
  · rw [hanswer]
    split_ifs with heq <;> simp [heq, eq_comm]
  · by_cases heq : t.written = s.toFinset
    · rw [if_pos heq] at hanswer
      rw [next_close_of_answer_eq_ok hanswer, decide_eq_true heq]
    · rw [if_neg heq] at hanswer
      rw [next_of_answer_eq_error hanswer, decide_eq_false heq, ← hopen]

end IndexedTable

end TraceRecovery
