import TraceRecovery.Proofs.Heuristic.Linked
import TraceRecovery.Result.IndexedTable

/-!
# Write-once tables and their indexes

An indexed table answers every question from the list of its accepted writes
(`IndexedTable.Faithful`), whatever has been tried on it before. A single invariant ties the order of
writing and the two indexes to that list (`IndexedTable.Indexes`). A write is accepted exactly if the
table is open and the candidate new, and then adds to all three alike (`Indexes.withEntry`); what is
refused changes nothing, and so does everything that is tried on a sealed table
(`IndexedTable.after_of_isSealed`).

An indexed table accepts and refuses what its plain table does, and leaves the same behind
(`IndexedTable.set_toTable`, `IndexedTable.sealOver_toTable`).
-/

namespace TraceRecovery

namespace IndexedTable

variable {t : IndexedTable} {c : Candidate} {x : Confidence} {s : CandidateSpace}
  {log : List (Candidate × Confidence)}

/-! ## Single steps -/

/-- What can be tried on a table. -/
inductive Step where
  | write (c : Candidate) (x : Confidence)
  | close (s : CandidateSpace)

/-- The effect of a step. -/
def Step.update : Step → Update Unit
  | .write c x => set c x
  | .close s => sealOver s

/-- What a table answers to a step. -/
def answer (t : IndexedTable) (step : Step) : Except TraceError Unit := (step.update.run.run t).1

/-- The table that a step leaves behind. -/
def next (t : IndexedTable) (step : Step) : IndexedTable := (step.update.run.run t).2

/-- The table with one more entry. -/
def withEntry (t : IndexedTable) (c : Candidate) (x : Confidence) : IndexedTable :=
  (if x.isDefined then t.link c else t).enter c x

@[simp]
theorem label_withEntry (t : IndexedTable) (c : Candidate) (x : Confidence) :
    (t.withEntry c x).label = t.label := by
  unfold withEntry
  split <;> rfl

@[simp]
theorem isSealed_withEntry (t : IndexedTable) (c : Candidate) (x : Confidence) :
    (t.withEntry c x).isSealed = t.isSealed := by
  unfold withEntry
  split <;> rfl

theorem order_withEntry (t : IndexedTable) (c : Candidate) (x : Confidence) :
    (t.withEntry c x).order = t.order.push c := by
  unfold withEntry
  split <;> rfl

theorem confidences_withEntry (t : IndexedTable) (c : Candidate) (x : Confidence) :
    (t.withEntry c x).confidences = t.confidences.insert c x := by
  unfold withEntry
  split <;> rfl

theorem linkedUnits_withEntry (t : IndexedTable) (c : Candidate) (x : Confidence) (id : String) :
    (t.withEntry c x).linkedUnits id =
      t.linkedUnits id ++ if c.item.id == id && x.isDefined then [c.unit] else [] := by
  unfold withEntry
  split
  · rename_i hdefined
    simp only [enter, linkedUnits, link, Std.HashMap.getD_insert, hdefined, Bool.and_true]
    by_cases hid : c.item.id = id <;> simp [hid]
  · rename_i hundefined
    simp [enter, linkedUnits, hundefined]

theorem run_set (t : IndexedTable) (c : Candidate) (x : Confidence) :
    (set c x).run.run t =
      if t.isSealed then (.error (.invalidArgument (.sealedTable t.label)), t)
      else if t.contains c then (.error (.duplicateEntry t.label c.render), t)
      else (.ok (), t.withEntry c x) := by
  show (ite _ _ _ : Update Unit).run.run t = _
  unfold withEntry
  split_ifs <;> rfl

theorem run_sealOver (t : IndexedTable) (s : CandidateSpace) :
    (sealOver s).run.run t =
      let missing := s.candidates.countP fun c => !t.contains c
      if missing > 0 || t.size != s.size then
        (.error (.incomplete t.label (.mismatch missing s.size (t.size + missing - s.size))), t)
      else (.ok (), { t with isSealed := true }) := by
  show (ite _ _ _ : Update Unit).run.run t = ite _ _ _
  split_ifs <;> rfl

theorem answer_write (t : IndexedTable) (c : Candidate) (x : Confidence) :
    t.answer (.write c x) =
      if t.isSealed then .error (.invalidArgument (.sealedTable t.label))
      else if t.contains c then .error (.duplicateEntry t.label c.render)
      else .ok () := by
  rw [answer, Step.update, run_set]
  split_ifs <;> rfl

/-- A step that is refused changes nothing. -/
theorem next_of_answer_eq_error {step : Step} {e : TraceError} (h : t.answer step = .error e) :
    t.next step = t := by
  cases step with
  | write c x =>
    rw [answer, Step.update, run_set] at h
    rw [next, Step.update, run_set]
    split_ifs at h ⊢
    · rfl
    · rfl
  | close s =>
    rw [answer, Step.update, run_sealOver] at h
    rw [next, Step.update, run_sealOver]
    dsimp only at h ⊢
    split_ifs at h ⊢
    rfl

theorem next_write_of_answer_eq_ok (h : t.answer (.write c x) = .ok ()) :
    t.isSealed = false ∧ t.contains c = false ∧
      t.next (.write c x) = t.withEntry c x := by
  rw [answer_write] at h
  rw [next, Step.update, run_set]
  split_ifs at h ⊢ with hsealed hcontains
  exact ⟨by simpa using hsealed, by simpa using hcontains, rfl⟩

theorem next_close_of_answer_eq_ok (h : t.answer (.close s) = .ok ()) :
    t.next (.close s) = { t with isSealed := true } := by
  rw [answer, Step.update, run_sealOver] at h
  rw [next, Step.update, run_sealOver]
  dsimp only at h ⊢
  split_ifs at h ⊢
  rfl

/-- A sealed table refuses every write, and is not changed by another seal. -/
theorem next_of_isSealed (h : t.isSealed = true) (step : Step) : t.next step = t := by
  cases hanswer : t.answer step with
  | error e => exact next_of_answer_eq_error hanswer
  | ok u =>
    cases step with
    | write c x =>
      have hopen := (next_write_of_answer_eq_ok hanswer).1
      rw [h] at hopen
      cases hopen
    | close s =>
      rw [next_close_of_answer_eq_ok hanswer, ← h]

/-! ## Indexes of a list -/

/-- The order of writing and the indexes of a table are those of a list of entries, no two of which
are for the same candidate. -/
structure Indexes (t : IndexedTable) (log : List (Candidate × Confidence)) : Prop where
  order_eq : t.order.toList = log.map Prod.fst
  distinct : (log.map Prod.fst).Nodup
  lookup_eq : ∀ c, t.confidences[c]? = log.lookup c
  linked_eq : ∀ id, t.linkedUnits id =
    (log.filter fun e => e.1.item.id == id && e.2.isDefined).map fun e => e.1.unit

theorem indexes_empty (label : String) : (empty label).Indexes [] where
  order_eq := rfl
  distinct := List.nodup_nil
  lookup_eq _ := Std.HashMap.getElem?_empty
  linked_eq _ := by simp [linkedUnits, empty]

namespace Indexes

variable (h : t.Indexes log)

include h

theorem contains_iff : t.contains c = true ↔ c ∈ log.map Prod.fst := by
  rw [contains, Std.HashMap.contains_eq_isSome_getElem?, h.lookup_eq, ← not_iff_not,
    Bool.not_eq_true, Option.isSome_eq_false_iff, Option.isNone_iff_eq_none,
    lookup_eq_none_iff_not_mem]

theorem get_eq : t.get c = (log.lookup c).getD .unset := by
  rw [get, Std.HashMap.getD_eq_getD_getElem?, h.lookup_eq]

theorem get_of_mem (he : (c, x) ∈ log) : t.get c = x := by
  rw [h.get_eq, lookup_eq_some_of_mem h.distinct he, Option.getD_some]

theorem entries_eq : t.entries = log := by
  rw [entries, h.order_eq, List.map_map]
  refine (List.map_congr_left fun e he => ?_).trans (List.map_id log)
  exact Prod.ext rfl (h.get_of_mem he)

/-- The map lists the entries in an order of its own. -/
theorem toList_perm : t.confidences.toList.Perm log := by
  -- Neither list repeats a candidate, so that it is enough to compare their members.
  have hkeys : (t.confidences.toList.map Prod.fst).Nodup := by
    rw [Std.HashMap.map_fst_toList_eq_keys]
    exact Std.HashMap.nodup_keys
  refine (List.perm_ext_iff_of_nodup hkeys.of_map h.distinct.of_map).mpr fun e => ?_
  rw [Std.HashMap.mem_toList_iff_getElem?_eq_some, h.lookup_eq]
  constructor
  · intro hlookup
    obtain ⟨before, after, rfl, -⟩ := List.lookup_eq_some_iff.mp hlookup
    exact List.mem_append_right _ List.mem_cons_self
  · exact fun he => lookup_eq_some_of_mem h.distinct he

theorem size_eq : t.size = log.length := by
  rw [size, ← Std.HashMap.length_toList, h.toList_perm.length_eq]

theorem definedCount_eq : t.definedCount = log.countP fun e => e.2.isDefined :=
  h.toList_perm.countP_eq _

/-- An accepted write adds an entry to the order of writing and to both indexes. -/
theorem withEntry (hnew : t.contains c = false) (x : Confidence) :
    (t.withEntry c x).Indexes (log ++ [(c, x)]) := by
  have hnotMem : c ∉ log.map Prod.fst := fun hm => by
    rw [h.contains_iff.mpr hm] at hnew
    cases hnew
  have hnone : log.lookup c = none := lookup_eq_none_iff_not_mem.mpr hnotMem
  refine ⟨?_, ?_, fun d => ?_, fun id => ?_⟩
  · rw [order_withEntry, Array.toList_push, h.order_eq, List.map_append, List.map_singleton]
  · rw [List.map_append, List.map_singleton, ← List.concat_eq_append]
    exact h.distinct.concat hnotMem
  · rw [confidences_withEntry, Std.HashMap.getElem?_insert, List.lookup_append, h.lookup_eq]
    by_cases hd : c = d
    · subst hd
      simp [hnone]
    · have hdc : (d == c) = false := beq_false_of_ne (Ne.symm hd)
      simp [hd, hdc, List.lookup_cons]
  · rw [linkedUnits_withEntry, h.linked_eq, List.filter_append, List.map_append]
    by_cases hid : (c.item.id == id && x.isDefined) = true <;> simp [hid]

theorem sealed : Indexes { t with isSealed := true } log :=
  ⟨h.order_eq, h.distinct, h.lookup_eq, h.linked_eq⟩

end Indexes

/-! ## Plain tables -/

theorem toTable_eq (h : t.Indexes log) : t.toTable = ⟨t.label, log, t.isSealed⟩ := by
  rw [toTable, h.entries_eq]

theorem contains_toTable (h : t.Indexes log) (c : Candidate) :
    t.toTable.contains c = t.contains c := by
  rw [Bool.eq_iff_iff, Table.contains_iff, h.contains_iff, toTable_eq h]
  rfl

/-- A write is answered as by the plain table, and leaves the same entries. -/
theorem set_toTable (h : t.Indexes log) (c : Candidate) (x : Confidence) :
    t.toTable.set c x = (t.answer (.write c x)).map fun _ => (t.next (.write c x)).toTable := by
  rw [Table.set, contains_toTable h, answer, next, Step.update, run_set]
  change (if t.isSealed then _ else _) = _
  split_ifs with hsealed hcontains
  · rfl
  · rfl
  · show Except.ok _ = Except.ok (t.withEntry c x).toTable
    rw [toTable_eq (h.withEntry (Bool.eq_false_iff.mpr hcontains) x), toTable_eq h,
      label_withEntry, isSealed_withEntry]

/-- A seal is answered as by the plain table, and leaves the same entries. -/
theorem sealOver_toTable (h : t.Indexes log) (s : CandidateSpace) :
    t.toTable.sealOver s = (t.answer (.close s)).map fun _ => (t.next (.close s)).toTable := by
  have hmissing : t.toTable.missing s = s.candidates.countP fun c => !t.contains c :=
    List.countP_congr fun c _ => by rw [contains_toTable h]
  have hsize : t.toTable.size = t.size := by
    rw [h.size_eq, toTable_eq h]
    rfl
  rw [Table.sealOver, hmissing, hsize, answer, next, Step.update, run_sealOver]
  dsimp only
  split_ifs <;> rfl

/-! ## Sequences of steps -/

/-- The table after some steps, whether they are accepted or refused. -/
def after (t : IndexedTable) (steps : List Step) : IndexedTable := steps.foldl next t

/-- Some steps with the answers to them. -/
def trace (t : IndexedTable) : List Step → List (Step × Except TraceError Unit)
  | [] => []
  | step :: steps => (step, t.answer step) :: (t.next step).trace steps

/-- What an answered step has written. -/
def written? : Step × Except TraceError Unit → Option (Candidate × Confidence)
  | (.write c x, .ok ()) => some (c, x)
  | _ => none

/-- The accepted writes of a trace. -/
def accepted (trace : List (Step × Except TraceError Unit)) : List (Candidate × Confidence) :=
  trace.filterMap written?

/-- A step keeps the indexes those of the accepted writes. -/
theorem Indexes.next (h : t.Indexes log) (step : Step) :
    (t.next step).Indexes (log ++ accepted [(step, t.answer step)]) := by
  cases hanswer : t.answer step with
  | error e =>
    have hnone : accepted [(step, Except.error e)] = [] := by cases step <;> rfl
    rw [next_of_answer_eq_error hanswer, hnone, List.append_nil]
    exact h
  | ok u =>
    cases step with
    | write c x =>
      obtain ⟨-, hnew, hnext⟩ := next_write_of_answer_eq_ok hanswer
      rw [hnext]
      exact h.withEntry hnew x
    | close s =>
      rw [next_close_of_answer_eq_ok hanswer]
      exact (List.append_nil log).symm ▸ h.sealed

/-- A run keeps the indexes those of the accepted writes. -/
theorem Indexes.after (h : t.Indexes log) (steps : List Step) :
    (t.after steps).Indexes (log ++ accepted (t.trace steps)) := by
  -- Whatever the first step writes comes in front of the writes of the others.
  induction steps generalizing t log with
  | nil => exact (List.append_nil log).symm ▸ h
  | cons step steps ih =>
    have htrace : accepted (t.trace (step :: steps)) =
        accepted [(step, t.answer step)] ++ accepted ((t.next step).trace steps) :=
      List.filterMap_append (l := [_])
    rw [htrace, ← List.append_assoc]
    exact ih (h.next step)

theorem label_next (t : IndexedTable) (step : Step) : (t.next step).label = t.label := by
  cases hanswer : t.answer step with
  | error e => rw [next_of_answer_eq_error hanswer]
  | ok u =>
    cases step with
    | write c x => rw [(next_write_of_answer_eq_ok hanswer).2.2, label_withEntry]
    | close s => rw [next_close_of_answer_eq_ok hanswer]

theorem label_after (t : IndexedTable) (steps : List Step) : (t.after steps).label = t.label := by
  induction steps generalizing t with
  | nil => rfl
  | cons step steps ih => exact (ih (t.next step)).trans (label_next t step)

/-- Nothing that is tried on a sealed table changes it. -/
theorem after_of_isSealed (h : t.isSealed = true) (steps : List Step) : t.after steps = t := by
  induction steps with
  | nil => rfl
  | cons step steps ih =>
    show (t.next step).after steps = t
    rw [next_of_isSealed h, ih]

theorem isSealed_next (t : IndexedTable) (step : Step) :
    (t.next step).isSealed = true ↔
      t.isSealed = true ∨ ∃ s, step = .close s ∧ t.answer step = .ok () := by
  cases hanswer : t.answer step with
  | error e => simp [next_of_answer_eq_error hanswer]
  | ok u =>
    cases step with
    | write c x =>
      obtain ⟨hopen, -, hnext⟩ := next_write_of_answer_eq_ok hanswer
      simp [hnext, hopen]
    | close s => simp [next_close_of_answer_eq_ok hanswer]

/-- A table is sealed exactly if it was before or has been sealed by one of the steps. -/
theorem isSealed_after (t : IndexedTable) (steps : List Step) :
    (t.after steps).isSealed = true ↔
      t.isSealed = true ∨ ∃ s, (.close s, .ok ()) ∈ t.trace steps := by
  induction steps generalizing t with
  | nil => simp [after, trace]
  | cons step steps ih =>
    have hafter : (t.after (step :: steps)).isSealed = ((t.next step).after steps).isSealed := rfl
    rw [hafter, ih, isSealed_next, or_assoc]
    simp only [trace, List.mem_cons, Prod.mk.injEq, exists_or]
    refine or_congr_right (or_congr_left (exists_congr fun s => ?_))
    constructor
    · rintro ⟨rfl, hanswer⟩
      exact ⟨rfl, hanswer.symm⟩
    · rintro ⟨rfl, hanswer⟩
      exact ⟨rfl, hanswer.symm⟩

/-! ## Answers from the list of writes -/

/-- Everything that can be asked of a table is answered from a list of entries for different
candidates. -/
structure Faithful (t : IndexedTable) (log : List (Candidate × Confidence)) : Prop where
  entries_eq : t.entries = log
  distinct : (log.map Prod.fst).Nodup
  contains_iff : ∀ c, t.contains c = true ↔ c ∈ log.map Prod.fst
  get_of_mem : ∀ c x, (c, x) ∈ log → t.get c = x
  get_of_not_mem : ∀ c, c ∉ log.map Prod.fst → t.get c = .unset
  size_eq : t.size = log.length
  definedCount_eq : t.definedCount = log.countP fun e => e.2.isDefined
  linkedUnits_eq : ∀ id, t.linkedUnits id =
    (log.filter fun e => e.1.item.id == id && e.2.isDefined).map fun e => e.1.unit

theorem Indexes.faithful (h : t.Indexes log) : t.Faithful log where
  entries_eq := h.entries_eq
  distinct := h.distinct
  contains_iff _ := h.contains_iff
  get_of_mem _ _ := h.get_of_mem
  get_of_not_mem c hc := by
    rw [h.get_eq, lookup_eq_none_iff_not_mem.mpr hc, Option.getD_none]
  size_eq := h.size_eq
  definedCount_eq := h.definedCount_eq
  linkedUnits_eq := h.linked_eq

/-- A table can be sealed over a space exactly if it has an entry for every candidate of the space
and no more entries than these. -/
theorem Indexes.answer_close_eq_ok_iff (h : t.Indexes log) :
    t.answer (.close s) = .ok () ↔
      (∀ c ∈ s.candidates, c ∈ log.map Prod.fst) ∧ log.length = s.size := by
  have hmissing : (s.candidates.countP fun c => !t.contains c) = 0 ↔
      ∀ c ∈ s.candidates, c ∈ log.map Prod.fst := by
    simp only [List.countP_eq_zero, Bool.not_eq_true', Bool.not_eq_false, h.contains_iff]
  rw [answer, Step.update, run_sealOver, ← hmissing, ← h.size_eq]
  dsimp only
  split_ifs with hrefused
  · simp only [false_iff, not_and]
    simpa [Nat.pos_iff_ne_zero, or_iff_not_imp_left] using hrefused
  · simpa [Nat.pos_iff_ne_zero] using hrefused

/-- Whatever is tried on an empty table, in any order, it answers from its accepted writes, and is
sealed exactly if one of the seals was accepted. A write is refused exactly if the table is sealed
or has an entry for the candidate, a seal exactly if the entries are not those of its space. What is
refused changes nothing, and neither does anything that is tried on a sealed table. -/
theorem write_once (label : String) (steps : List Step) :
    let t := (empty label).after steps
    let trace := (empty label).trace steps
    t.Faithful (accepted trace) ∧
      (t.isSealed = true ↔ ∃ s, (.close s, .ok ()) ∈ trace) ∧
      (∀ c x, t.answer (.write c x) =
        if t.isSealed then .error (.invalidArgument (.sealedTable label))
        else if c ∈ (accepted trace).map Prod.fst then .error (.duplicateEntry label c.render)
        else .ok ()) ∧
      (∀ s, t.answer (.close s) = .ok () ↔
        (∀ c ∈ s.candidates, c ∈ (accepted trace).map Prod.fst) ∧
          (accepted trace).length = s.size) ∧
      (∀ step e, t.answer step = .error e → t.next step = t) ∧
      (t.isSealed = true → ∀ more, t.after more = t) := by
  intro t trace
  have hindexes : t.Indexes (accepted trace) := (indexes_empty label).after steps
  have hlabel : t.label = label := label_after (empty label) steps
  refine ⟨hindexes.faithful, ?_, fun c x => ?_, fun s => hindexes.answer_close_eq_ok_iff,
    fun step e => next_of_answer_eq_error, after_of_isSealed⟩
  · exact (isSealed_after (empty label) steps).trans (or_iff_right Bool.false_ne_true)
  · simp only [answer_write, hlabel, hindexes.contains_iff]

end IndexedTable

end TraceRecovery
