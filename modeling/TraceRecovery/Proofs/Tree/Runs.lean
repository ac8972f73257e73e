import TraceRecovery.Proofs.Tree.Passes
import TraceRecovery.Proofs.Tree.Waves

/-!
# Runs

A run that takes the nodes of a tree in turns takes each needed node once, after its inputs
(`Turns.legal`, `Turns.mem_iff`). So every pass finds what it needs (`Tree.pass_eq`), and by
induction over the nodes that are left the run either publishes the tables that the recursion gives
to all needed nodes, or fails for one of few reasons (`Tree.passes_spec`). A reason is never a step
of the run itself: it has been cancelled, or the heuristic or the aggregation of a needed node has
failed (`Tree.Raised`). Workers that share out the candidates of a node may report another one that
fails, which is a reason as well (`Tree.raised_of_value_eq_error`).
-/

namespace TraceRecovery

namespace Tree

variable {t : Tree} {s : CandidateSpace} {b : Board} {done ids : List NodeId} {id : NodeId}
  {n : Node} {e : TraceError}

/-! ## Turns -/

/-- Taking waves in turns is legal once all lower levels are done. -/
theorem legal_of_takesTurns {count k : Nat}
    (h : Schedule.TakesTurns ((List.range' k count).map t.nodesAt) ids)
    (hdone : ∀ i, i ∈ done ↔ t.Needed i ∧ t.level i < k) : Schedule.Legal t.inputs done ids := by
  induction count generalizing k done ids with
  | zero =>
    obtain rfl : ids = [] := h
    trivial
  | succ count ih =>
    obtain ⟨first, rest, rfl, hperm, hrest⟩ := h
    have hfirst : ∀ id ∈ first, t.Needed id ∧ t.level id = k := fun id hid =>
      mem_nodesAt.mp (hperm.mem_iff.mp hid)
    refine Schedule.legal_append.mpr ⟨Schedule.legal_of_forall ?_ fun id hid => ?_, ih hrest ?_⟩
    · exact hperm.nodup_iff.mpr ((nodesAt_ascending k).imp Nat.ne_of_lt)
    · obtain ⟨hneeded, hlevel⟩ := hfirst id hid
      refine ⟨fun hm => ?_, fun i hi => (hdone i).mpr ⟨hneeded.input hi, ?_⟩⟩
      · exact absurd ((hdone id).mp hm).2 (by omega)
      · exact hlevel ▸ level_lt hneeded hi
    · intro i
      rw [List.mem_append, hdone, hperm.mem_iff, mem_nodesAt, ← and_or_left,
        Nat.lt_succ_iff_lt_or_eq]

theorem perm_of_takesTurns {waves : List (List NodeId)} (h : Schedule.TakesTurns waves ids) :
    ids.Perm waves.flatten := by
  induction waves generalizing ids with
  | nil => exact h ▸ .nil
  | cons wave waves ih =>
    obtain ⟨first, rest, rfl, hperm, hrest⟩ := h
    exact hperm.append (ih hrest)

variable (w : t.Turns)

theorem Turns.legal : Schedule.Legal t.inputs [] w.ids := by
  have h := w.inTurns
  rw [waves_eq, List.range_eq_range'] at h
  exact legal_of_takesTurns h fun i => by simp

theorem Turns.mem_iff : id ∈ w.ids ↔ t.Needed id := by
  rw [(perm_of_takesTurns w.inTurns).mem_iff, mem_flatten_waves]

/-! ## Reasons to fail -/

variable (t s) in
/-- What a run can fail with. Either it is cancelled before a needed node; or the heuristic or the
aggregation of a needed node fails on a candidate, given what the recursion gives to the inputs of
the node, and then the recursion fails there as well. -/
inductive Raised (mayCancel : Prop) : TraceError → Prop
  | cancelled {id : NodeId} {n : Node} :
      mayCancel → t.Needed id → t.nodes[id]? = some n → Raised mayCancel (.cancelled n.label)
  | heuristic {id : NodeId} {n : Node} {h : Heuristic} {dependencies : List NodeId}
      {tables : List Table} {c : Candidate} {e : TraceError} :
      t.Needed id → t.nodes[id]? = some n → n.kind = .leaf h dependencies → c ∈ s.candidates →
      List.Forall₂ (fun i tb => t.table s i = .ok tb) dependencies tables →
      h.score c { Context.ofModels s.architecture s.code with dependencies := tables } = .error e →
      t.value s id c = .error e → Raised mayCancel e
  | aggregation {id : NodeId} {n : Node} {a : Aggregation} {children : List NodeId}
      {confidences : List Confidence} {c : Candidate} {e : TraceError} :
      t.Needed id → t.nodes[id]? = some n → n.kind = .inner a children → c ∈ s.candidates →
      List.Forall₂ (fun i confidence => t.value s i c = .ok confidence) children confidences →
      a.combine confidences = .error e →
      t.value s id c = .error e → Raised mayCancel e

/-- If the inputs of a node have their tables, each candidate on which the node fails gives a reason,
whichever of them is reported. -/
theorem raised_of_value_eq_error {mayCancel : Prop} {tables : List Table} {c : Candidate}
    (hid : t.Needed id) (hn : t.nodes[id]? = some n)
    (htables : List.Forall₂ (fun i tb => t.table s i = .ok tb) n.inputs tables)
    (hc : c ∈ s.candidates) (hvalue : t.value s id c = .error e) : t.Raised s mayCancel e := by
  have hscore : n.score s tables c = .error e := by
    have h := hvalue
    rw [value_eq_confidence hn htables hc, Node.confidence] at h
    split at h
    · cases h
    · exact h
  cases hk : n.kind with
  | leaf h dependencies =>
    rw [Node.inputs, hk] at htables
    rw [Node.score, hk] at hscore
    exact .heuristic hid hn hk hc htables hscore hvalue
  | inner a children =>
    rw [Node.inputs, hk] at htables
    rw [Node.score, hk] at hscore
    refine .aggregation hid hn hk hc ?_ hscore hvalue
    rw [List.forall₂_map_right_iff]
    exact htables.imp fun i tb htb => Valuation.value_eq_get htb hc

/-- If a node has no table although its inputs have theirs, its own heuristic or aggregation has
failed. -/
theorem raised_of_table_eq_error {mayCancel : Prop} {tables : List Table} (hid : t.Needed id)
    (hn : t.nodes[id]? = some n)
    (htables : List.Forall₂ (fun i tb => t.table s i = .ok tb) n.inputs tables)
    (he : t.table s id = .error e) : t.Raised s mayCancel e := by
  obtain ⟨c, hc, hvalue⟩ := Valuation.exists_of_table_eq_error he
  exact raised_of_value_eq_error hid hn htables hc hvalue

/-! ## Runs -/

theorem Needed.exists_node (h : t.Needed id) : ∃ n, t.nodes[id]? = some n :=
  ⟨_, List.getElem?_eq_getElem h.lt⟩

/-- A pass over the next node of a legal order adds the node's table to the board, or fails for one
of the reasons. -/
theorem pass_spec {mayCancel : Prop} {cancelled : Bool} (hcancel : cancelled = true → mayCancel)
    (hf : t.Filled s done b) (hid : t.Needed id) (hnew : id ∉ done)
    (hin : ∀ i ∈ t.inputs id, i ∈ done) :
    Fallible.Ends (t.Filled s (done ++ [id])) (t.Raised s mayCancel) (t.pass s cancelled id b) := by
  obtain ⟨n, hn⟩ := hid.exists_node
  rw [inputs_eq hn] at hin
  rw [pass_eq hf hn hnew hin]
  cases cancelled with
  | true => exact .cancelled (hcancel rfl) hid hn
  | false =>
    cases htb : t.table s id with
    | ok tb => exact hf.publish htb
    | error e =>
      obtain ⟨tables, -, htables⟩ := hf.exists_inputTables hin
      exact raised_of_table_eq_error hid hn htables htb

theorem run_passes_cons {σ : Type} {isCancelled : StateM σ Bool} (st : σ) :
    (t.passes s isCancelled (id :: ids) b).run st =
      match t.pass s (isCancelled.run st).1 id b with
      | .error e => (.error e, (isCancelled.run st).2)
      | .ok next => (t.passes s isCancelled ids next).run (isCancelled.run st).2 := by
  rw [passes, StateT.run_bind]
  show StateT.run (match t.pass s (isCancelled.run st).1 id b with
    | .error e => _
    | .ok next => _) (isCancelled.run st).2 = _
  cases t.pass s (isCancelled.run st).1 id b <;> rfl

/-- Passes over needed nodes in a legal order fill the board, or fail for one of the reasons. -/
theorem passes_spec {σ : Type} (isCancelled : StateM σ Bool)
    (hl : Schedule.Legal t.inputs done ids) (hids : ∀ id ∈ ids, t.Needed id)
    (hf : t.Filled s done b) (st : σ) :
    Fallible.Ends (t.Filled s (done ++ ids)) (t.Raised s (∃ st, (isCancelled.run st).1 = true))
      ((t.passes s isCancelled ids b).run st).1 := by
  induction ids generalizing done b st with
  | nil => rwa [List.append_nil]
  | cons id ids ih =>
    obtain ⟨hnew, hin, hl⟩ := hl
    obtain ⟨hid, hids⟩ := List.forall_mem_cons.mp hids
    have hcancel : (isCancelled.run st).1 = true → ∃ st, (isCancelled.run st).1 = true :=
      fun h => ⟨st, h⟩
    have hpass := pass_spec hcancel hf hid hnew hin
    rw [run_passes_cons]
    cases hp : t.pass s (isCancelled.run st).1 id b with
    | error e => exact hpass.of_eq_error hp
    | ok next =>
      have hrest := ih hl hids (hpass.of_eq_ok hp) (isCancelled.run st).2
      rwa [List.append_assoc] at hrest

/-! ## Outcomes -/

variable (t s) in
/-- The outcome of a run is what the recursion gives: exactly the needed nodes have a table, and
each of these is sealed and has the values of all candidates, in their order. -/
structure IsOutcome (e : Evaluation) : Prop where
  space_eq : e.space = s
  root_eq : e.root = t.root
  isComplete_iff : ∀ id, e.board.isComplete id = true ↔ t.Needed id
  nodup : (e.board.tables.map Prod.fst).Nodup
  isSealed : ∀ id tb, e.board.table? id = some tb → tb.isSealed = true
  written : ∀ id tb, e.board.table? id = some tb → tb.written = s.candidates ∧ tb.written.Nodup
  value_eq : ∀ id tb, e.board.table? id = some tb → ∀ c ∈ s.candidates,
    t.value s id c = .ok (tb.get c)
  result_eq : e.board.table? t.root = some e.result

/-- A run that has filled the board finds the table of the root. -/
theorem exists_outcome (hf : t.Filled s w.ids b) :
    ∃ e, t.outcome s b = .ok e ∧ t.IsOutcome s e := by
  have hroot : t.Needed t.root := .refl
  obtain ⟨n, hn⟩ := hroot.exists_node
  obtain ⟨result, hresult⟩ := hf.exists_table?_iff.mpr (w.mem_iff.mpr hroot)
  refine ⟨⟨t.name, t.root, n.label, s, b, result⟩, ?_, ?_⟩
  · rw [outcome, node_eq_ok hn]
    show (b.get t.root n.label >>= _) = _
    rw [Board.get_eq_ok_iff.mpr hresult]
    rfl
  · exact
      { space_eq := rfl
        root_eq := rfl
        isComplete_iff := fun id => by
          rw [Board.isComplete, Option.isSome_iff_exists, hf.exists_table?_iff, w.mem_iff]
        nodup := by
          rw [hf.ids]
          simpa using w.legal.nodup List.nodup_nil
        isSealed := fun id tb htb => Valuation.isSealed_table (hf.table_eq_of_table? htb)
        written := fun id tb htb => by
          rw [Valuation.written_table (hf.table_eq_of_table? htb)]
          exact ⟨rfl, s.nodup_candidates⟩
        value_eq := fun id tb htb c hc => Valuation.value_eq_get (hf.table_eq_of_table? htb) hc
        result_eq := hresult }

theorem run_runInTurns {σ : Type} {isCancelled : StateM σ Bool} (st : σ) :
    ((t.runInTurns isCancelled s w).run st).1 =
      match ((t.passes s isCancelled w.ids .empty).run st).1 with
      | .error e => .error e
      | .ok b => t.outcome s b := by
  rw [runInTurns, StateT.run_bind]
  rcases (t.passes s isCancelled w.ids .empty).run st with ⟨e | b, st'⟩
  · rfl
  · rfl

/-- A run that takes the nodes in turns gives what the recursion gives, or fails for one of the
reasons. -/
theorem runInTurns_spec {σ : Type} (isCancelled : StateM σ Bool) (st : σ) :
    Fallible.Ends (t.IsOutcome s) (t.Raised s (∃ st, (isCancelled.run st).1 = true))
      ((t.runInTurns isCancelled s w).run st).1 := by
  have hpasses := passes_spec isCancelled w.legal (fun id hid => w.mem_iff.mp hid)
    (filled_empty t s) st
  rw [run_runInTurns]
  cases hp : ((t.passes s isCancelled w.ids .empty).run st).1 with
  | error e => exact hpasses.of_eq_error hp
  | ok b =>
    obtain ⟨e, he, houtcome⟩ := exists_outcome w (hpasses.of_eq_ok hp)
    simp only [he]
    exact houtcome

end Tree

end TraceRecovery
