import TraceRecovery.Proofs.Result.Filling

/-!
# Published tables are final

Whatever is tried on a board, it consists of the publications that it has accepted, in their order
(`Board.tables_after`). It accepts the first sealed table of each node and nothing else, so a table
that can be read once is read from then on (`Board.table?_after`). What is refused changes nothing:
a publication as a step, which leaves a board behind in either case, agrees with `Board.publish`
(`Board.publish_eq`).

Boards with the same tables of all nodes (`Board.Alike`) cannot be told apart. Publications of
different nodes lead to such boards in either order (`Board.alike_publish_publish`).
`Board.Published` is all of this for one board and the tables that it has published.
-/

namespace TraceRecovery

namespace Board

variable {b b' : Board} {id id' : NodeId} {t t' : Table} {label : String} {e : TraceError}

/-! ## Single steps -/

/-- A step on a board: its answer, and the board that it leaves behind. -/
abbrev Update := ExceptT TraceError (StateM Board)

/-- Publishes the table of a node, which is handed back. -/
def publishing (id : NodeId) (t : Table) : Update Table := do
  t.ensureSealed
  if (← getThe Board).isComplete id then
    throw (.duplicateEntry t.label ("result store slot " ++ nodeText id))
  modify fun b => ⟨b.tables ++ [(id, t)]⟩
  return t

/-- What can be tried on a board. -/
inductive Step where
  | publish (id : NodeId) (t : Table)
  | get (id : NodeId) (label : String)
  | isComplete (id : NodeId)

/-- What a board answers to a step that it accepts. -/
inductive Answer where
  | table (t : Table)
  | complete (yes : Bool)

/-- The effect of a step. -/
def Step.update : Step → Update Answer
  | .publish id t => return .table (← publishing id t)
  | .get id label => do return .table (← (← getThe Board).get id label)
  | .isComplete id => do return .complete ((← getThe Board).isComplete id)

/-- What a board answers to a step. -/
def answer (b : Board) (step : Step) : Except TraceError Answer := (step.update.run.run b).1

/-- The board that a step leaves behind. -/
def next (b : Board) (step : Step) : Board := (step.update.run.run b).2

theorem run_publishing (b : Board) (id : NodeId) (t : Table) :
    (publishing id t).run.run b =
      if t.isSealed then
        if b.isComplete id then
          (.error (.duplicateEntry t.label ("result store slot " ++ nodeText id)), b)
        else (.ok t, ⟨b.tables ++ [(id, t)]⟩)
      else (.error (.incomplete t.label (.unsealed t.size)), b) := by
  unfold publishing Table.ensureSealed
  cases t.isSealed with
  | false => rfl
  | true =>
    show (ite _ _ _ : Update Table).run.run b = _
    simp only [if_true]
    split_ifs <;> rfl

theorem run_publish (b : Board) (id : NodeId) (t : Table) :
    (Step.publish id t).update.run.run b =
      ((publishing id t).run.run b).map (Except.map .table) fun next => next := by
  show (publishing id t >>= fun t => pure (Answer.table t) : Update Answer).run.run b = _
  simp only [ExceptT.run_bind, StateT.run_bind]
  cases (publishing id t).run.run b with
  | mk answer next => cases answer <;> rfl

theorem answer_publish (b : Board) (id : NodeId) (t : Table) :
    b.answer (.publish id t) =
      if t.isSealed then
        if b.isComplete id then
          .error (.duplicateEntry t.label ("result store slot " ++ nodeText id))
        else .ok (.table t)
      else .error (.incomplete t.label (.unsealed t.size)) := by
  rw [answer, run_publish, run_publishing]
  split_ifs <;> rfl

theorem next_publish (b : Board) (id : NodeId) (t : Table) :
    b.next (.publish id t) =
      if t.isSealed = true ∧ b.isComplete id = false then ⟨b.tables ++ [(id, t)]⟩ else b := by
  rw [next, run_publish, run_publishing]
  split_ifs <;> simp_all

/-- A publication is answered as by `publish`, and leaves the same board. -/
theorem publish_eq (b : Board) (id : NodeId) (t : Table) :
    b.publish id t = (b.answer (.publish id t)).map fun _ => b.next (.publish id t) := by
  rw [answer_publish, next_publish, publish, Table.ensureSealed]
  cases t.isSealed with
  | false => rfl
  | true => cases b.isComplete id <;> simp [bind, Except.bind, Except.map]

theorem answer_get (b : Board) (id : NodeId) (label : String) :
    b.answer (.get id label) = (b.get id label).map .table := by
  show ((liftM (b.get id label) >>= fun t => pure (.table t) : Update Answer).run.run b).1 = _
  cases b.get id label <;> rfl

theorem next_get (b : Board) (id : NodeId) (label : String) : b.next (.get id label) = b := by
  show ((liftM (b.get id label) >>= fun t => pure (.table t) : Update Answer).run.run b).2 = _
  cases b.get id label <;> rfl

theorem answer_isComplete (b : Board) (id : NodeId) :
    b.answer (.isComplete id) = .ok (.complete (b.isComplete id)) := rfl

/-- A step that is refused changes nothing. -/
theorem next_of_answer_eq_error {step : Step} (h : b.answer step = .error e) : b.next step = b := by
  cases step with
  | publish id t =>
    rw [answer_publish] at h
    rw [next_publish]
    split_ifs at h ⊢ <;> simp_all
  | get id label => rw [next_get]
  | isComplete id => rfl

/-! ## Sequences of steps -/

/-- The board after some steps, whether they are accepted or refused. -/
def after (b : Board) (steps : List Step) : Board := steps.foldl next b

/-- Some steps with the answers to them. -/
def trace (b : Board) : List Step → List (Step × Except TraceError Answer)
  | [] => []
  | step :: steps => (step, b.answer step) :: (b.next step).trace steps

/-- What an answered step has published. -/
def published? : Step × Except TraceError Answer → Option (NodeId × Table)
  | (.publish id t, .ok _) => some (id, t)
  | _ => none

/-- The accepted publications of a trace. -/
def published (trace : List (Step × Except TraceError Answer)) : List (NodeId × Table) :=
  trace.filterMap published?

/-- A step adds what it publishes. -/
theorem tables_next (b : Board) (step : Step) :
    (b.next step).tables = b.tables ++ published [(step, b.answer step)] := by
  cases hanswer : b.answer step with
  | error e =>
    have hnone : published [(step, Except.error e)] = [] := by cases step <;> rfl
    rw [next_of_answer_eq_error hanswer, hnone, List.append_nil]
  | ok answer =>
    cases step with
    | publish id t =>
      rw [answer_publish] at hanswer
      rw [next_publish]
      split_ifs at hanswer ⊢ <;> simp_all [published, published?]
    | get id label => rw [next_get]; exact (List.append_nil b.tables).symm
    | isComplete id => exact (List.append_nil b.tables).symm

/-- A board consists of what was there before and the accepted publications, in their order. -/
theorem tables_after (b : Board) (steps : List Step) :
    (b.after steps).tables = b.tables ++ published (b.trace steps) := by
  induction steps generalizing b with
  | nil => exact (List.append_nil b.tables).symm
  | cons step steps ih =>
    have htrace : published (b.trace (step :: steps)) =
        published [(step, b.answer step)] ++ published ((b.next step).trace steps) :=
      List.filterMap_append (l := [_])
    rw [htrace, ← List.append_assoc, ← tables_next]
    exact ih (b.next step)

/-- A table that can be read stays as it is. -/
theorem table?_after (h : b.table? id = some t) (steps : List Step) :
    (b.after steps).table? id = some t := by
  rw [table?] at h ⊢
  rw [tables_after, List.lookup_append, h, Option.some_or]

/-- All tables are sealed, and no node has two of them. -/
structure Sound (b : Board) : Prop where
  isSealed : ∀ e ∈ b.tables, e.2.isSealed = true
  distinct : (b.tables.map Prod.fst).Nodup

theorem isComplete_iff : b.isComplete id = true ↔ id ∈ b.tables.map Prod.fst := by
  rw [isComplete, Option.isSome_iff_exists, exists_table?_eq_some_iff]

theorem isComplete_eq_false_iff : b.isComplete id = false ↔ id ∉ b.tables.map Prod.fst := by
  rw [← isComplete_iff, Bool.not_eq_true]

theorem sound_empty : Sound empty := ⟨by simp [empty], by simp [empty]⟩

theorem Sound.next (h : b.Sound) (step : Step) : (b.next step).Sound := by
  cases step with
  | publish id t =>
    rw [next_publish]
    split_ifs with haccepted
    · obtain ⟨hsealed, hnew⟩ := haccepted
      refine ⟨List.forall_mem_append.mpr ⟨h.isSealed, by simpa using hsealed⟩, ?_⟩
      rw [List.map_append, List.map_singleton, ← List.concat_eq_append]
      exact h.distinct.concat (isComplete_eq_false_iff.mp hnew)
    · exact h
  | get id label => rwa [next_get]
  | isComplete id => exact h

theorem Sound.after (h : b.Sound) (steps : List Step) : (b.after steps).Sound := by
  induction steps generalizing b with
  | nil => exact h
  | cons step steps ih => exact ih (h.next step)

/-! ## Boards with the same tables -/

/-- Two boards have the same tables of all nodes. -/
structure Alike (b b' : Board) : Prop where
  table?_eq : ∀ id, b.table? id = b'.table? id
  size_eq : b.size = b'.size

namespace Alike

variable (h : Alike b b')

include h

theorem isComplete_eq (id : NodeId) : b.isComplete id = b'.isComplete id := by
  rw [isComplete, isComplete, h.table?_eq]

theorem answer_eq (step : Step) : b.answer step = b'.answer step := by
  cases step with
  | publish id t => rw [answer_publish, answer_publish, h.isComplete_eq]
  | get id label => rw [answer_get, answer_get, get, get, h.table?_eq]
  | isComplete id => rw [answer_isComplete, answer_isComplete, h.isComplete_eq]

theorem next (step : Step) : Alike (b.next step) (b'.next step) := by
  cases step with
  | publish id t =>
    rw [next_publish, next_publish, h.isComplete_eq]
    split_ifs
    · refine ⟨fun id' => ?_, ?_⟩
      · have htable := h.table?_eq id'
        rw [table?, table?] at htable ⊢
        rw [List.lookup_append, List.lookup_append, htable]
      · have hsize := h.size_eq
        simpa [size] using hsize
    · exact h
  | get id label => rwa [next_get, next_get]
  | isComplete id => exact h

theorem trace_eq (steps : List Step) : b.trace steps = b'.trace steps := by
  induction steps generalizing b b' with
  | nil => rfl
  | cons step steps ih => rw [trace, trace, h.answer_eq, ih (h.next step)]

theorem after (steps : List Step) : Alike (b.after steps) (b'.after steps) := by
  induction steps generalizing b b' with
  | nil => exact h
  | cons step steps ih => exact ih (h.next step)

end Alike

/-! ## Publications of different nodes -/

/-- A sealed table is published for a node that has none so far. -/
theorem table?_next_publish (b : Board) (id : NodeId) (t : Table) (id' : NodeId) :
    (b.next (.publish id t)).table? id' =
      (b.table? id').or (if id' = id ∧ t.isSealed = true then some t else none) := by
  rw [next_publish]
  split_ifs with haccepted hmine hmine
  · obtain ⟨rfl, -⟩ := hmine
    rw [table?, List.lookup_append, List.lookup_cons_self]
    rfl
  · have hother : id' ≠ id := fun hid => hmine ⟨hid, haccepted.1⟩
    rw [table?, List.lookup_append, List.lookup_cons, beq_false_of_ne hother]
    rfl
  · obtain ⟨rfl, hsealed⟩ := hmine
    obtain ⟨first, hfirst⟩ := Option.isSome_iff_exists.mp
      (Bool.not_eq_false _ |>.mp fun hnew => haccepted ⟨hsealed, hnew⟩)
    rw [hfirst, Option.some_or]
  · rw [Option.or_none]

theorem size_next_publish (b : Board) (id : NodeId) (t : Table) :
    (b.next (.publish id t)).size =
      b.size + if t.isSealed = true ∧ b.isComplete id = false then 1 else 0 := by
  rw [next_publish]
  split_ifs
  · exact List.length_append
  · rfl

/-- A publication does not concern other nodes. -/
theorem isComplete_next_publish (h : id' ≠ id) (b : Board) (t : Table) :
    (b.next (.publish id t)).isComplete id' = b.isComplete id' := by
  rw [isComplete, table?_next_publish, if_neg (fun hmine => h hmine.1), Option.or_none, isComplete]

theorem answer_publish_next_publish (h : id' ≠ id) (b : Board) (t t' : Table) :
    (b.next (.publish id t)).answer (.publish id' t') = b.answer (.publish id' t') := by
  rw [answer_publish, answer_publish, isComplete_next_publish h]

/-- Publications of different nodes can be made in either order. -/
theorem alike_publish_publish (h : id ≠ id') (b : Board) (t t' : Table) :
    Alike (b.after [.publish id t, .publish id' t'])
      (b.after [.publish id' t', .publish id t]) where
  table?_eq i := by
    show ((b.next _).next _).table? i = ((b.next _).next _).table? i
    simp only [table?_next_publish, Option.or_assoc]
    congr 1
    by_cases hi : i = id
    · have hi' : i ≠ id' := fun hid => h (hi.symm.trans hid)
      simp [hi']
    · simp [hi]
  size_eq := by
    show ((b.next _).next _).size = ((b.next _).next _).size
    simp only [size_next_publish, isComplete_next_publish h, isComplete_next_publish h.symm]
    omega

/-- Two boards answer alike, whatever is tried on them. -/
def Indistinguishable (b b' : Board) : Prop :=
  ∀ steps, b.trace steps = b'.trace steps ∧ (b.after steps).size = (b'.after steps).size

theorem Alike.indistinguishable (h : Alike b b') : Indistinguishable b b' :=
  fun steps => ⟨h.trace_eq steps, (h.after steps).size_eq⟩

/-- A board has published exactly the tables of a list, and answers from it for good. -/
structure Published (b : Board) (log : List (NodeId × Table)) : Prop where
  /-- No node has two tables. -/
  distinct : (log.map Prod.fst).Nodup
  isSealed : ∀ e ∈ log, e.2.isSealed = true
  /-- An unsealed table is refused as such even if the node has one already. -/
  answer_publish : ∀ id t, b.answer (.publish id t) =
    if t.isSealed then
      if id ∈ log.map Prod.fst then
        .error (.duplicateEntry t.label ("result store slot " ++ nodeText id))
      else .ok (.table t)
    else .error (.incomplete t.label (.unsealed t.size))
  /-- As a step, a publication does what `publish` does. -/
  publish_eq : ∀ id t,
    b.publish id t = (b.answer (.publish id t)).map fun _ => b.next (.publish id t)
  next_of_error : ∀ step e, b.answer step = .error e → b.next step = b
  /-- What is published is read from then on, whatever is tried besides. -/
  final : ∀ id t, (id, t) ∈ log → ∀ more label,
    (b.after more).answer (.get id label) = .ok (.table t)
  answer_get_of_not_mem : ∀ id, id ∉ log.map Prod.fst → ∀ label,
    b.answer (.get id label) = .error (.incomplete label .notRun)
  answer_isComplete : ∀ id,
    b.answer (.isComplete id) = .ok (.complete (decide (id ∈ log.map Prod.fst)))
  size_eq : b.size = log.length
  /-- A publication makes no difference to that of another node. -/
  answer_next_publish : ∀ id id' t t', id ≠ id' →
    (b.next (.publish id t)).answer (.publish id' t') = b.answer (.publish id' t')
  /-- Publications of two nodes leave boards that answer alike in whichever order they are made. -/
  exchange : ∀ id id' t t', id ≠ id' →
    Indistinguishable (b.after [.publish id t, .publish id' t'])
      (b.after [.publish id' t', .publish id t])

theorem Sound.published (h : b.Sound) : b.Published b.tables where
  distinct := h.distinct
  isSealed := h.isSealed
  answer_publish id t := by simp only [Board.answer_publish, isComplete_iff]
  publish_eq := Board.publish_eq b
  next_of_error _ _ := next_of_answer_eq_error
  final id t ht more label := by
    have hfound : b.table? id = some t := lookup_eq_some_of_mem h.distinct ht
    rw [answer_get, get, table?_after hfound more]
    rfl
  answer_get_of_not_mem id hid label := by
    have hnone : b.table? id = none := lookup_eq_none_iff_not_mem.mpr hid
    rw [answer_get, get, hnone]
    rfl
  answer_isComplete id := by
    have hcomplete : b.isComplete id = decide (id ∈ b.tables.map Prod.fst) := by
      rw [Bool.eq_iff_iff, isComplete_iff, decide_eq_true_iff]
    rw [Board.answer_isComplete, hcomplete]
  size_eq := rfl
  answer_next_publish _ _ t t' hne := answer_publish_next_publish hne.symm b t t'
  exchange _ _ t t' hne := (alike_publish_publish hne b t t').indistinguishable

/-- Whatever is tried on an empty board, in any order, exactly the first sealed table of each node
is published, for good. A refused table leaves the board as it is. -/
theorem published_tables_are_final (steps : List Step) :
    (empty.after steps).Published (published (empty.trace steps)) := by
  have htables : (empty.after steps).tables = published (empty.trace steps) :=
    tables_after empty steps
  exact htables ▸ (sound_empty.after steps).published

end Board

end TraceRecovery
