import Mathlib.Data.List.Nodup
import TraceRecovery.Proofs.Fallible
import TraceRecovery.Result.Board

/-!
# Filling and publishing a table

A node writes one entry for each candidate, in their order, seals its table and publishes it. The
candidates are distinct (`CandidateSpace.nodup_candidates`), so none of these steps is refused,
whatever the confidences are:

* `Table.setAll_eq_ok`: entries for new and distinct candidates can be written to an open table;
* `Table.sealOver_eq_ok`: a table with the entries of all candidates can be sealed;
* `Board.publish_eq_ok`: the sealed table of a node without one can be published.

The result is `Table.full`, in which each candidate has the confidence that was found for it
(`Table.get_full`).
-/

namespace TraceRecovery

/-! ## Elements by their keys -/

/-- Where no key comes twice, the first element with a key is the only one. -/
theorem find?_key_eq_some_iff {α κ : Type} [BEq κ] [LawfulBEq κ] {key : α → κ} {l : List α}
    (hn : (l.map key).Nodup) {k : κ} {x : α} :
    (l.find? fun y => key y == k) = some x ↔ x ∈ l ∧ key x = k := by
  constructor
  · intro h
    exact ⟨List.mem_of_find?_eq_some h, by simpa using List.find?_some h⟩
  · rintro ⟨hx, rfl⟩
    cases h : l.find? fun y => key y == key x with
    | none => simpa using List.find?_eq_none.mp h x hx
    | some y =>
      rw [List.inj_on_of_nodup_map hn (List.mem_of_find?_eq_some h) hx
        (by simpa using List.find?_some h)]

section Lookup

variable {α β : Type} [BEq α] [LawfulBEq α] {entries : List (α × β)} {a : α} {b : β}

/-- Where no key comes twice, the value of each is found. -/
theorem lookup_eq_some_of_mem (hn : (entries.map Prod.fst).Nodup) (h : (a, b) ∈ entries) :
    entries.lookup a = some b := by
  obtain ⟨before, after, rfl⟩ := List.append_of_mem h
  have hnew : ∀ p ∈ before, (a != p.1) = true := by
    intro p hp
    rw [List.map_append, List.map_cons] at hn
    have hne := (List.nodup_append.mp hn).2.2 p.1 (List.mem_map_of_mem hp) a List.mem_cons_self
    simpa using hne.symm
  exact List.lookup_eq_some_iff.mpr ⟨before, after, rfl, hnew⟩

theorem lookup_eq_none_iff_not_mem : entries.lookup a = none ↔ a ∉ entries.map Prod.fst := by
  rw [List.lookup_eq_none_iff]
  simp only [bne_iff_ne, List.mem_map, not_exists, not_and]
  exact forall_congr' fun e => forall_congr' fun _ => ⟨Ne.symm, Ne.symm⟩

end Lookup

/-! ## Tables -/

/-- Candidates are distinct since the ids of items and units are. -/
theorem CandidateSpace.nodup_candidates (s : CandidateSpace) : s.candidates.Nodup := by
  have hitems : s.architecture.items.Nodup := s.architecture.distinct.of_map _
  have hunits : s.code.units.Nodup := s.code.distinct.of_map _
  refine List.nodup_flatMap.mpr ⟨fun i _ => hunits.map fun u v h => (Candidate.mk.inj h).2, ?_⟩
  refine hitems.imp fun {i j} hne t hi hj => ?_
  obtain ⟨u, -, rfl⟩ := List.mem_map.mp hi
  obtain ⟨v, -, h⟩ := List.mem_map.mp hj
  exact hne (Candidate.mk.inj h).1.symm

namespace Table

/-- The sealed table that gives all candidates of a space their confidences. -/
def full (label : String) (s : CandidateSpace) (confidences : List Confidence) : Table :=
  ⟨label, s.candidates.zip confidences, true⟩

variable {t : Table} {s : CandidateSpace} {label : String} {confidences : List Confidence}

theorem setAll_eq_ok {es : List (Candidate × Confidence)} (hopen : t.isSealed = false)
    (hn : (t.written ++ es.map Prod.fst).Nodup) :
    t.setAll es = .ok { t with entries := t.entries ++ es } := by
  induction es generalizing t with
  | nil => rw [List.append_nil]; rfl
  | cons e es ih =>
    obtain ⟨c, confidence⟩ := e
    have hnew : c ∉ t.written := fun hm =>
      (List.nodup_append.mp hn).2.2 c hm c List.mem_cons_self rfl
    have hset : t.set c confidence = .ok { t with entries := t.entries ++ [(c, confidence)] } :=
      set_eq_ok_iff.mpr ⟨hopen, hnew, rfl⟩
    have hrest := @ih { t with entries := t.entries ++ [(c, confidence)] } hopen
      (by simpa [written] using hn)
    exact Fallible.bind_eq_ok_iff.mpr ⟨_, hset, by simpa using hrest⟩

theorem sealOver_eq_ok (h : t.written = s.candidates) :
    t.sealOver s = .ok { t with isSealed := true } := by
  have hmissing : t.missing s = 0 := by
    rw [missing, List.countP_eq_zero]
    intro c hc
    simp [contains_iff, h, hc]
  have hsize : t.size = s.size := by
    rw [CandidateSpace.size, ← h, written, List.length_map, size]
  rw [sealOver, hmissing, hsize]
  simp

theorem written_full (h : confidences.length = s.size) :
    (full label s confidences).written = s.candidates :=
  List.map_fst_zip (Nat.le_of_eq h.symm)

theorem setAll_candidates (h : confidences.length = s.size) :
    (empty label).setAll (s.candidates.zip confidences) =
      .ok ⟨label, s.candidates.zip confidences, false⟩ := by
  refine setAll_eq_ok rfl ?_
  rw [List.map_fst_zip (Nat.le_of_eq h.symm)]
  exact s.nodup_candidates

theorem sealOver_candidates (h : confidences.length = s.size) :
    Table.sealOver ⟨label, s.candidates.zip confidences, false⟩ s =
      .ok (full label s confidences) :=
  sealOver_eq_ok (List.map_fst_zip (Nat.le_of_eq h.symm))

/-- Where the confidences have been found by scoring the candidates in their order, the table has
that of each candidate. -/
theorem get_full {score : Candidate → Except TraceError Confidence}
    (h : s.candidates.mapM score = .ok confidences) {c : Candidate} (hc : c ∈ s.candidates) :
    score c = .ok ((full label s confidences).get c) := by
  obtain ⟨confidence, hlookup, hscore⟩ := Fallible.lookup_zip h hc
  rw [get, full, hlookup, hscore]
  rfl

end Table

/-! ## Boards -/

namespace Board

variable {b : Board} {id : NodeId} {t : Table}

theorem publish_eq_ok (hseal : t.isSealed = true) (hnew : id ∉ b.tables.map Prod.fst) :
    b.publish id t = .ok ⟨b.tables ++ [(id, t)]⟩ := by
  have hnone : b.table? id = none := lookup_eq_none_iff_not_mem.mpr hnew
  simp [publish, Table.ensureSealed, hseal, isComplete, hnone, bind, Except.bind]

theorem eq_of_publish_eq_ok {next : Board} (h : b.publish id t = .ok next) :
    next = ⟨b.tables ++ [(id, t)]⟩ := by
  obtain ⟨u, -, h⟩ := Fallible.bind_eq_ok_iff.mp h
  split_ifs at h
  exact (Except.ok.inj h).symm

theorem mem_of_table?_eq_some (h : b.table? id = some t) : (id, t) ∈ b.tables := by
  obtain ⟨before, after, h, -⟩ := List.lookup_eq_some_iff.mp h
  simp [h]

theorem exists_table?_eq_some_iff : (∃ t, b.table? id = some t) ↔ id ∈ b.tables.map Prod.fst := by
  rw [← Option.isSome_iff_exists, ← not_iff_not, Bool.not_eq_true, Option.isSome_eq_false_iff,
    Option.isNone_iff_eq_none]
  exact lookup_eq_none_iff_not_mem

theorem get_eq_ok_iff {label : String} : b.get id label = .ok t ↔ b.table? id = some t := by
  unfold get
  cases b.table? id <;> simp

end Board

end TraceRecovery
