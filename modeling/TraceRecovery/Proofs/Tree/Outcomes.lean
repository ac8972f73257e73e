import TraceRecovery.Proofs.Tree.Interleaving

/-!
# Outcomes

A finished run is known from the tables that the recursion gives to the needed nodes: these are what
its board holds (`Tree.Finished`), and if there are all of them, every run that is not cancelled
finishes (`Tree.exists_run_eq_ok`). So what can be said of finished runs is a matter of tables.
-/

namespace TraceRecovery

namespace Tree

variable {t : Tree} {s : CandidateSpace} {b : Board} {e : Evaluation}

variable (t s) in
/-- The outcome of a finished run: its board has the tables of all needed nodes. -/
structure Finished (e : Evaluation) : Prop where
  treeName_eq : e.treeName = t.name
  space_eq : e.space = s
  exists_table : ∀ id, t.Needed id → ∃ tb, e.board.table? id = some tb ∧ t.table s id = .ok tb
  result_eq : e.board.table? t.root = some e.result

theorem finished_of_outcome (q : t.Sequence) (hf : t.Filled s q.ids b)
    (h : t.outcome s b = .ok e) : t.Finished s e := by
  obtain ⟨n, -, h⟩ := Fallible.bind_eq_ok_iff.mp h
  obtain ⟨result, hresult, h⟩ := Fallible.bind_eq_ok_iff.mp h
  obtain rfl : (⟨t.name, t.root, n.label, s, b, result⟩ : Evaluation) = e := Except.ok.inj h
  refine ⟨rfl, rfl, fun id hid => ?_, Board.get_eq_ok_iff.mp hresult⟩
  obtain ⟨tb, htb⟩ := hf.exists_table?_iff.mpr ((q.mem_iff id).mpr hid)
  exact ⟨tb, htb, hf.table_eq_of_table? htb⟩

/-- However a run goes that has not failed, it has finished with all tables. -/
theorem finished_of_run_eq_ok (w : t.Turns) {σ : Type} {isCancelled : StateM σ Bool} {st : σ}
    (h : ((t.runInTurns isCancelled s w).run st).1 = .ok e) : t.Finished s e := by
  have hpasses := passes_spec isCancelled w.legal (fun id hid => w.mem_iff.mp hid)
    (filled_empty t s) st
  rw [run_runInTurns] at h
  cases hp : ((t.passes s isCancelled w.ids .empty).run st).1 with
  | error e' =>
    rw [hp] at h
    cases h
  | ok b =>
    rw [hp] at h
    exact finished_of_outcome w.sequence (hpasses.of_eq_ok hp) h

/-- A run that is not cancelled finishes if the recursion gives tables to all needed nodes. -/
theorem exists_run_eq_ok (w : t.Turns) (h : ∀ id, t.Needed id → ∃ tb, t.table s id = .ok tb) :
    ∃ e, Id.run (t.runInTurns (pure false) s w) = .ok e ∧ t.Finished s e := by
  obtain ⟨b, hb⟩ := (exists_passes_eq_ok_iff w.sequence).mpr h
  have hf := (passes_ends w.sequence s).of_eq_ok hb
  obtain ⟨e, he, -⟩ := exists_outcome w hf
  refine ⟨e, ?_, finished_of_outcome w.sequence hf he⟩
  have hpasses : Id.run (t.passes s (pure false) w.ids .empty) = .ok b := hb
  rw [runInTurns, Id.run_bind, hpasses]
  exact he

end Tree

end TraceRecovery
