import TraceRecovery.Proofs.Tree.Refinement

/-!
# Passes in any order

The waves are one way of taking each needed node once and after its inputs, and there are others
(`Tree.Sequence`): the nodes of a wave may take turns in any order (`Turns.sequence`), and a node
may even be taken before others of an earlier wave that it does not read. Which one is chosen makes
no difference (`Tree.passes_independent_of_sequence`).

The reason is that the board depends only on which nodes have run: it holds the tables that the
recursion gives to them (`Filled.mem_tables_iff`), and if the recursion gives no table to one of
them, no sequence can be finished (`Tree.exists_passes_eq_ok_iff`). So passes need not be exchanged
with one another, and it does not matter which node is the first to fail.
-/

namespace TraceRecovery

namespace Tree

variable {t : Tree} {s : CandidateSpace} {b : Board} {done : List NodeId} {id : NodeId}

/-- A sequence of exactly the needed nodes that takes each once, after its inputs. -/
structure Sequence (t : Tree) where
  ids : List NodeId
  legal : Schedule.Legal t.inputs [] ids
  mem_iff : ∀ id, id ∈ ids ↔ t.Needed id

/-- Taking the waves in turns is such a sequence. -/
def Turns.sequence (w : t.Turns) : t.Sequence := ⟨w.ids, w.legal, fun _ => w.mem_iff⟩

theorem Sequence.nodup (q : t.Sequence) : q.ids.Nodup := by
  simpa using q.legal.nodup List.nodup_nil

theorem Sequence.perm (p q : t.Sequence) : p.ids.Perm q.ids := by
  rw [List.perm_ext_iff_of_nodup p.nodup q.nodup]
  exact fun id => (p.mem_iff id).trans (q.mem_iff id).symm

/-- The entries of a board during a run are the tables of the nodes that have run. -/
theorem Filled.mem_tables_iff (h : t.Filled s done b) {e : NodeId × Table} :
    e ∈ b.tables ↔ e.1 ∈ done ∧ t.table s e.1 = .ok e.2 := by
  constructor
  · intro he
    exact ⟨h.ids ▸ List.mem_map_of_mem he, h.table_eq e he⟩
  · rintro ⟨hdone, htable⟩
    rw [← h.ids] at hdone
    obtain ⟨e', he', hid⟩ := List.mem_map.mp hdone
    have htable' := h.table_eq e' he'
    rw [hid, htable] at htable'
    obtain rfl : e' = e := Prod.ext hid (Except.ok.inj htable').symm
    exact he'

theorem Filled.table?_eq_some_iff (h : t.Filled s done b) {tb : Table} :
    b.table? id = some tb ↔ id ∈ done ∧ t.table s id = .ok tb := by
  constructor
  · intro htb
    exact h.mem_tables_iff.mp (Board.mem_of_table?_eq_some htb)
  · rintro ⟨hdone, htable⟩
    obtain ⟨tb', htb'⟩ := h.exists_table?_iff.mpr hdone
    have htable' := h.table_eq_of_table? htb'
    rw [htable] at htable'
    rw [htb', Except.ok.inj htable']

/-- Boards on which the same nodes have run hold the same tables. -/
theorem Filled.table?_eq {b' : Board} {done' : List NodeId} (h : t.Filled s done b)
    (h' : t.Filled s done' b') (hdone : done.Perm done') (id : NodeId) :
    b.table? id = b'.table? id :=
  Option.ext fun tb => by
    rw [h.table?_eq_some_iff, h'.table?_eq_some_iff, hdone.mem_iff]

theorem Filled.perm_tables {b' : Board} {done' : List NodeId} (h : t.Filled s done b)
    (h' : t.Filled s done' b') (hdone : done.Perm done') (hn : done.Nodup) :
    b.tables.Perm b'.tables := by
  have hb : b.tables.Nodup := .of_map Prod.fst (h.ids.symm ▸ hn)
  have hb' : b'.tables.Nodup := .of_map Prod.fst (h'.ids.symm ▸ hdone.nodup_iff.mp hn)
  rw [List.perm_ext_iff_of_nodup hb hb']
  intro e
  rw [h.mem_tables_iff, h'.mem_tables_iff, hdone.mem_iff]

/-- A sequence fills the board, or the recursion gives no table to some needed node. -/
theorem passes_ends (q : t.Sequence) (s : CandidateSpace) :
    Fallible.Ends (t.Filled s q.ids) (fun _ => ∃ id e, t.Needed id ∧ t.table s id = .error e)
      (Id.run (t.passes s (pure false) q.ids .empty)) := by
  have hspec := passes_spec (pure false : StateM Unit Bool) q.legal
    (fun id hid => (q.mem_iff id).mp hid) (filled_empty t s) ()
  rw [run_passes_pure] at hspec
  cases hp : Id.run (t.passes s (pure false) q.ids .empty) with
  | ok b => exact hspec.of_eq_ok (by rw [hp])
  | error e =>
    have hraised := hspec.of_eq_error (by rw [hp])
    have hnever : ¬ ∃ st : Unit, ((pure false : StateM Unit Bool).run st).1 = true := by
      rintro ⟨st, h⟩
      cases h
    obtain ⟨id, hid, c, hc, hvalue⟩ := hraised.exists_value_eq_error hnever
    cases htable : t.table s id with
    | error e' => exact ⟨id, e', hid, htable⟩
    | ok tb =>
      have hget : t.value s id c = .ok (tb.get c) := Valuation.value_eq_get htable hc
      rw [hget] at hvalue
      cases hvalue

/-- A sequence can be finished exactly if the recursion gives a table to every needed node. -/
theorem exists_passes_eq_ok_iff (q : t.Sequence) :
    (∃ b, Id.run (t.passes s (pure false) q.ids .empty) = .ok b) ↔
      ∀ id, t.Needed id → ∃ tb, t.table s id = .ok tb := by
  have hends := passes_ends q s
  constructor
  · rintro ⟨b, hb⟩ id hid
    have hfilled := hends.of_eq_ok hb
    obtain ⟨tb, htb⟩ := hfilled.exists_table?_iff.mpr ((q.mem_iff id).mpr hid)
    exact ⟨tb, hfilled.table_eq_of_table? htb⟩
  · intro htables
    cases hp : Id.run (t.passes s (pure false) q.ids .empty) with
    | ok b => exact ⟨b, rfl⟩
    | error e =>
      obtain ⟨id, e', hid, he'⟩ := hends.of_eq_error hp
      obtain ⟨tb, htb⟩ := htables id hid
      rw [htb] at he'
      cases he'

/-- Any two sequences either both fail, or both finish with the same tables for the same nodes: each
table with its entries in the order of writing, and so with the units that it links. -/
theorem passes_independent_of_sequence (t : Tree) (s : CandidateSpace) (p q : t.Sequence) :
    (∃ e e', Id.run (t.passes s (pure false) p.ids .empty) = .error e ∧
      Id.run (t.passes s (pure false) q.ids .empty) = .error e') ∨
    ∃ b b', Id.run (t.passes s (pure false) p.ids .empty) = .ok b ∧
      Id.run (t.passes s (pure false) q.ids .empty) = .ok b' ∧
      b.tables.Perm b'.tables ∧ (∀ id, b.isComplete id = true ↔ t.Needed id) ∧
      ∀ id, b.table? id = b'.table? id := by
  cases hp : Id.run (t.passes s (pure false) p.ids .empty) with
  | error e =>
    refine .inl ⟨e, ?_⟩
    cases hq : Id.run (t.passes s (pure false) q.ids .empty) with
    | error e' => exact ⟨e', rfl, rfl⟩
    | ok b' =>
      have hok := (exists_passes_eq_ok_iff p).mpr ((exists_passes_eq_ok_iff q).mp ⟨b', hq⟩)
      obtain ⟨b, hb⟩ := hok
      rw [hp] at hb
      cases hb
  | ok b =>
    have hok := (exists_passes_eq_ok_iff q).mpr ((exists_passes_eq_ok_iff p).mp ⟨b, hp⟩)
    obtain ⟨b', hb'⟩ := hok
    have hfilled := (passes_ends p s).of_eq_ok hp
    have hfilled' := (passes_ends q s).of_eq_ok hb'
    refine .inr ⟨b, b', rfl, hb', ?_, fun id => ?_, hfilled.table?_eq hfilled' (p.perm q)⟩
    · exact hfilled.perm_tables hfilled' (p.perm q) p.nodup
    · rw [Board.isComplete, Option.isSome_iff_exists, hfilled.exists_table?_iff, p.mem_iff]

end Tree

end TraceRecovery
