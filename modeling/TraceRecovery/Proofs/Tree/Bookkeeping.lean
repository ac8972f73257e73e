import TraceRecovery.Proofs.Tree.Runs

/-!
# The bookkeeping of a run never fails

The steps of a run that look up nodes and tables, write, seal and publish all check what they are
given. None of these checks ever refuses anything (`Tree.Granted`), whatever the heuristics do and
whenever the run is cancelled, so only cancellation and the scoring of candidates are left as
reasons for a run to fail (`Tree.bookkeeping_never_fails`).
-/

namespace TraceRecovery

namespace Tree

variable {t : Tree} {s : CandidateSpace} {b : Board} {done : List NodeId} {id : NodeId} {n : Node}

variable (t s) in
/-- All steps of a pass over a node succeed, apart from the scoring of candidates: the node and the
tables of its inputs are found, these can be attached and read, and whatever the confidences of the
candidates are, they can be written, and the table can be sealed and published. -/
structure Granted (b : Board) (id : NodeId) (n : Node) (tables : List Table) : Prop where
  node_eq : t.node id = .ok n
  inputTables_eq : n.inputTables b = .ok tables
  withDependencies_eq : (Context.ofModels s.architecture s.code).withDependencies tables =
    .ok { Context.ofModels s.architecture s.code with dependencies := tables }
  ensureSealed_eq : ∀ tb ∈ tables, tb.ensureSealed = .ok ()
  publish_eq : ∀ confidences : List Confidence, confidences.length = s.size →
    ∃ filled sealedTable next,
      (Table.empty n.label).setAll (s.candidates.zip confidences) = .ok filled ∧
      filled.sealOver s = .ok sealedTable ∧ b.publish id sealedTable = .ok next

theorem Filled.granted (h : t.Filled s done b) (hid : t.Needed id) (hnew : id ∉ done)
    (hin : ∀ i ∈ t.inputs id, i ∈ done) : ∃ n tables, t.Granted s b id n tables := by
  obtain ⟨n, hn⟩ := hid.exists_node
  rw [inputs_eq hn] at hin
  obtain ⟨tables, hread, htables⟩ := h.exists_inputTables hin
  have hseal := isSealed_of_forall₂ htables
  refine ⟨n, tables, node_eq_ok hn, hread, Context.withDependencies_eq_ok hseal, ?_, ?_⟩
  · intro tb htb
    rw [Table.ensureSealed, hseal tb htb]
    rfl
  · intro confidences hlen
    exact ⟨_, _, _, Table.setAll_candidates hlen, Table.sealOver_candidates hlen,
      Board.publish_eq_ok rfl (h.ids ▸ hnew)⟩

/-- Whenever and however a run is cancelled, it fails only if it is cancelled or if the heuristic or
the aggregation of a needed node fails on a candidate. Before each pass that it comes to, all other
steps of that pass are bound to succeed; and once all nodes have run, so is the outcome. -/
theorem bookkeeping_never_fails (t : Tree) (s : CandidateSpace) (w : t.Turns) (σ : Type)
    (isCancelled : StateM σ Bool) (st : σ) :
    (∀ e, ((t.runInTurns isCancelled s w).run st).1 = .error e →
      t.Raised s (∃ st, (isCancelled.run st).1 = true) e) ∧
    (∀ done id rest b, w.ids = done ++ id :: rest →
      ((t.passes s isCancelled done .empty).run st).1 = .ok b →
      ∃ n tables, t.Granted s b id n tables) ∧
    ∀ b, ((t.passes s isCancelled w.ids .empty).run st).1 = .ok b →
      ∃ e, t.outcome s b = .ok e := by
  refine ⟨fun e he => (runInTurns_spec w isCancelled st).of_eq_error he, ?_, ?_⟩
  · intro done id rest b hids hb
    obtain ⟨hdone, hnew, hin, -⟩ := Schedule.legal_append.mp (hids ▸ w.legal)
    have hneeded : ∀ i ∈ done ++ id :: rest, t.Needed i := fun i hi => w.mem_iff.mp (hids ▸ hi)
    have hpasses := passes_spec isCancelled hdone
      (fun i hi => hneeded i (List.mem_append_left _ hi)) (filled_empty t s) st
    exact (hpasses.of_eq_ok hb).granted (hneeded id (by simp)) hnew hin
  · intro b hb
    have hpasses := passes_spec isCancelled w.legal (fun i hi => w.mem_iff.mp hi)
      (filled_empty t s) st
    obtain ⟨e, he, -⟩ := exists_outcome w (hpasses.of_eq_ok hb)
    exact ⟨e, he⟩

end Tree

end TraceRecovery
