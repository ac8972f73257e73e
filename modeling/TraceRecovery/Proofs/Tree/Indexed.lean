import TraceRecovery.Proofs.Result.Indexing
import TraceRecovery.Proofs.Tree.Runs

/-!
# Runs that write indexed tables

A run is described by plain tables; the tables that its nodes really write have indexes. A node
makes one write for each candidate and then a seal (`IndexedTable.filling`), and gives its table up
with the first of these that is refused (`IndexedTable.attempt`). By induction over the steps the
table and its plain table stay together, whatever is refused (`IndexedTable.attempt_toTable`):

* `Node.run_eq_runIndexed`: a node fails with the same error in either way, or ends with the same
  table;
* `IndexedTable.Indexes.agrees`: whatever a dependent node, a report or the evaluation of links asks
  of the plain table is answered alike from the indexes;
* `Tree.indexed_of_run_eq_ok`: every table of a finished run is that of an indexed one.
-/

namespace TraceRecovery

namespace IndexedTable

variable {t t' : IndexedTable} {log : List (Candidate × Confidence)}

/-! ## Readers -/

/-- Whatever is asked of an indexed table is answered as by a plain one. -/
structure Agrees (t : IndexedTable) (tb : Table) : Prop where
  label_eq : t.label = tb.label
  entries_eq : t.entries = tb.entries
  get_eq : ∀ c, t.get c = tb.get c
  contains_eq : ∀ c, t.contains c = tb.contains c
  linkedUnits_eq : ∀ id, t.linkedUnits id = tb.linkedUnits id
  size_eq : t.size = tb.size
  definedCount_eq : t.definedCount = tb.definedCount
  ensureSealed_eq : t.ensureSealed = tb.ensureSealed

theorem Indexes.agrees (h : t.Indexes log) : t.Agrees t.toTable where
  label_eq := rfl
  entries_eq := rfl
  get_eq c := by rw [toTable_eq h, h.get_eq, Table.get]
  contains_eq c := (contains_toTable h c).symm
  linkedUnits_eq id := by rw [toTable_eq h, h.linked_eq, Table.linkedUnits]
  size_eq := by rw [toTable_eq h, h.size_eq, Table.size]
  definedCount_eq := by rw [toTable_eq h, h.definedCount_eq, Table.definedCount]
  ensureSealed_eq := by
    rw [toTable_eq h, ensureSealed, Table.ensureSealed, h.size_eq]
    rfl

/-! ## Steps in turn -/

/-- The effect of a step on a plain table. -/
def Step.onTable (tb : Table) : Step → Except TraceError Table
  | .write c x => tb.set c x
  | .close s => tb.sealOver s

/-- A step is answered as by the plain table, and leaves the same entries. -/
theorem onTable_toTable (h : t.Indexes log) (step : Step) :
    step.onTable t.toTable = (t.answer step).map fun _ => (t.next step).toTable := by
  cases step with
  | write c x => exact set_toTable h c x
  | close s => exact sealOver_toTable h s

/-- Makes steps in turn on a table that is given up with the first that is refused. -/
def attempt (t : IndexedTable) : List Step → Except TraceError IndexedTable
  | [] => .ok t
  | step :: steps => do
    t.answer step
    (t.next step).attempt steps

/-- Steps in turn fail as on the plain table, or end with the same entries. -/
theorem attempt_toTable (h : t.Indexes log) (steps : List Step) :
    steps.foldlM Step.onTable t.toTable = (t.attempt steps).map toTable := by
  -- A step that is accepted keeps the indexes, so the others start from such a table again.
  induction steps generalizing t log with
  | nil => rfl
  | cons step steps ih =>
    rw [List.foldlM_cons, onTable_toTable h, attempt]
    cases hanswer : t.answer step with
    | error e => rfl
    | ok u => exact ih (h.next step)

theorem eq_after_of_attempt_eq_ok {steps : List Step} (h : t.attempt steps = .ok t') :
    t' = t.after steps := by
  induction steps generalizing t with
  | nil => exact (Except.ok.inj h).symm
  | cons step steps ih =>
    obtain ⟨u, -, h⟩ := Fallible.bind_eq_ok_iff.mp h
    exact ih h

/-- What a node does to its table once it has the confidences of the candidates. -/
def filling (s : CandidateSpace) (confidences : List Confidence) : List Step :=
  (s.candidates.zip confidences).map (fun e => .write e.1 e.2) ++ [.close s]

theorem foldlM_onTable_writes (tb : Table) (es : List (Candidate × Confidence)) :
    (es.map fun e => Step.write e.1 e.2).foldlM Step.onTable tb = tb.setAll es := by
  induction es generalizing tb with
  | nil => rfl
  | cons e es ih => exact congrArg _ (funext ih)

theorem foldlM_onTable_filling (tb : Table) (s : CandidateSpace) (confidences : List Confidence) :
    (filling s confidences).foldlM Step.onTable tb =
      tb.setAll (s.candidates.zip confidences) >>= (·.sealOver s) := by
  rw [filling, List.foldlM_append, foldlM_onTable_writes]
  refine congrArg _ (funext fun filled => ?_)
  exact bind_pure (filled.sealOver s)

end IndexedTable

/-! ## One node -/

namespace Node

variable {n : Node} {s : CandidateSpace} {b : Board} {t : IndexedTable}

/-- The sealed table of a node that writes its confidences into an indexed table. -/
def runIndexed (n : Node) (s : CandidateSpace) (b : Board) : Except TraceError IndexedTable := do
  let tables ← n.inputTables b
  let own ← n.ownScore s tables
  let confidences ← s.candidates.mapM (n.confidence tables own)
  (IndexedTable.empty n.label).attempt (IndexedTable.filling s confidences)

/-- A node that writes an indexed table fails as with a plain one, or ends with the same table. -/
theorem run_eq_runIndexed (n : Node) (s : CandidateSpace) (b : Board) :
    n.run s b = IndexedTable.toTable <$> n.runIndexed s b := by
  have hfill : ∀ confidences : List Confidence,
      (Table.empty n.label).setAll (s.candidates.zip confidences) >>= (·.sealOver s) =
        IndexedTable.toTable <$>
          (IndexedTable.empty n.label).attempt (IndexedTable.filling s confidences) :=
    fun confidences => by
      rw [← IndexedTable.foldlM_onTable_filling]
      exact IndexedTable.attempt_toTable (IndexedTable.indexes_empty n.label) _
  simp only [run, runIndexed, map_bind, hfill]

/-- The indexes of the table that a node leaves behind are those of its entries. -/
theorem agrees_of_runIndexed (h : n.runIndexed s b = .ok t) : t.Agrees t.toTable := by
  obtain ⟨tables, -, h⟩ := Fallible.bind_eq_ok_iff.mp h
  obtain ⟨own, -, h⟩ := Fallible.bind_eq_ok_iff.mp h
  obtain ⟨confidences, -, h⟩ := Fallible.bind_eq_ok_iff.mp h
  rw [IndexedTable.eq_after_of_attempt_eq_ok h]
  exact ((IndexedTable.indexes_empty n.label).after _).agrees

end Node

/-! ## Whole runs -/

namespace Tree

variable {t : Tree} {s : CandidateSpace} {b next : Board} {id : NodeId} {e : Evaluation}

variable (t s) in
/-- Every table on a board is that of the indexed table that its node leaves behind, given the
tables that were published before. -/
def Indexed (b : Board) : Prop :=
  ∀ before id tb after, b.tables = before ++ (id, tb) :: after →
    ∃ n indexed, t.node id = .ok n ∧ n.runIndexed s ⟨before⟩ = .ok indexed ∧
      indexed.toTable = tb ∧ indexed.Agrees tb

theorem indexed_empty (t : Tree) (s : CandidateSpace) : t.Indexed s .empty :=
  fun before id tb after h => absurd h.symm (by simp [Board.empty])

theorem Indexed.pass {cancelled : Bool} (h : t.Indexed s b)
    (hpass : t.pass s cancelled id b = .ok next) : t.Indexed s next := by
  obtain ⟨n, hn, hpass⟩ := Fallible.bind_eq_ok_iff.mp hpass
  split_ifs at hpass
  obtain ⟨tb, hrun, hpublish⟩ := Fallible.bind_eq_ok_iff.mp hpass
  rw [n.run_eq_runIndexed] at hrun
  obtain ⟨indexed, hindexed, rfl⟩ := Fallible.map_eq_ok_iff.mp hrun
  obtain rfl := Board.eq_of_publish_eq_ok hpublish
  intro before id' tb' after hsplit
  -- The table is the new one if there is none after it, and was on the board otherwise.
  rcases List.eq_nil_or_concat after with rfl | ⟨after, last, rfl⟩
  · obtain ⟨rfl, hlast⟩ := List.append_inj' hsplit rfl
    obtain ⟨rfl, rfl⟩ := Prod.mk.inj (List.singleton_inj.mp hlast)
    exact ⟨n, indexed, hn, hindexed, rfl, n.agrees_of_runIndexed hindexed⟩
  · rw [List.concat_eq_append, ← List.cons_append, ← List.append_assoc] at hsplit
    exact h before id' tb' after (List.append_inj' hsplit rfl).1

theorem Indexed.passes {σ : Type} {isCancelled : StateM σ Bool} {ids : List NodeId} {st : σ}
    (h : t.Indexed s b) (hpasses : ((t.passes s isCancelled ids b).run st).1 = .ok next) :
    t.Indexed s next := by
  induction ids generalizing b st with
  | nil =>
    obtain rfl := Except.ok.inj hpasses
    exact h
  | cons id ids ih =>
    rw [run_passes_cons] at hpasses
    cases hpass : t.pass s (isCancelled.run st).1 id b with
    | error e =>
      rw [hpass] at hpasses
      cases hpasses
    | ok after =>
      rw [hpass] at hpasses
      exact ih (h.pass hpass) hpasses

/-- However a run goes that has not failed, each of its tables is that of an indexed table that the
node has filled and sealed, and whatever is asked of it is answered from the indexes. -/
theorem indexed_of_run_eq_ok (w : t.Turns) {σ : Type} {isCancelled : StateM σ Bool} {st : σ}
    (h : ((t.runInTurns isCancelled s w).run st).1 = .ok e) : t.Indexed s e.board := by
  rw [run_runInTurns] at h
  cases hpasses : ((t.passes s isCancelled w.ids .empty).run st).1 with
  | error e' =>
    rw [hpasses] at h
    cases h
  | ok b =>
    rw [hpasses] at h
    obtain ⟨n, -, h⟩ := Fallible.bind_eq_ok_iff.mp h
    obtain ⟨result, -, h⟩ := Fallible.bind_eq_ok_iff.mp h
    obtain rfl : (⟨t.name, t.root, n.label, s, b, result⟩ : Evaluation) = e := Except.ok.inj h
    exact (indexed_empty t s).passes hpasses

end Tree

end TraceRecovery
