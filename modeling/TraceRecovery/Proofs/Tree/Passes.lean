import TraceRecovery.Proofs.Tree.Building
import TraceRecovery.Proofs.Tree.Recursion
import TraceRecovery.Tree.Evaluation

/-!
# Passes

What one pass of a run does once the inputs of its node have run. The board then holds the tables
that the recursion gives to the nodes that have run (`Tree.Filled`), and a pass adds that of its
node (`Tree.pass_eq`):

* `Node.run_eq`: the node's table has the confidences of its candidates, as nothing else in it can
  fail;
* `Node.confidence_eq`: these are what the recursion gives to the candidates.
-/

namespace TraceRecovery

variable {s : CandidateSpace} {tables : List Table} {c : Candidate}

/-! ## One node -/

theorem Context.withDependencies_eq_ok {models : Context}
    (h : ∀ tb ∈ tables, tb.isSealed = true) :
    models.withDependencies tables = .ok { models with dependencies := tables } := by
  have hall : ensureAllSealed tables = .ok () := by
    induction tables with
    | nil => rfl
    | cons tb tables ih =>
      obtain ⟨htb, htables⟩ := List.forall_mem_cons.mp h
      rw [ensureAllSealed, Table.ensureSealed, htb, ih htables]
      rfl
  rw [withDependencies, hall]
  rfl

theorem Aggregation.evaluate_eq (a : Aggregation) (h : ∀ tb ∈ tables, tb.isSealed = true) :
    a.evaluate tables c = a.combine (tables.map fun tb => tb.get c) := by
  have hget : (tables.mapM fun tb => do
      tb.ensureSealed
      return tb.get c : Except TraceError (List Confidence)) =
        tables.mapM fun tb => pure (tb.get c) :=
    Fallible.mapM_congr fun tb htb => by rw [Table.ensureSealed, h tb htb]; rfl
  rw [evaluate, hget, List.mapM_pure]
  rfl

namespace Node

variable {n : Node} {b : Board}

/-- How a node itself scores candidates, given the sealed tables of its inputs. -/
def score (n : Node) (s : CandidateSpace) (tables : List Table) (c : Candidate) :
    Except TraceError Confidence :=
  match n.kind with
  | .leaf h _ =>
    h.score c { Context.ofModels s.architecture s.code with dependencies := tables }
  | .inner a _ => a.combine (tables.map fun tb => tb.get c)

theorem ownScore_eq (hseal : ∀ tb ∈ tables, tb.isSealed = true) :
    n.ownScore s tables = .ok (n.score s tables) := by
  unfold ownScore score
  cases n.kind with
  | leaf h _ =>
    simp only [Context.withDependencies_eq_ok hseal]
    rfl
  | inner a _ =>
    refine congrArg Except.ok (funext fun c => ?_)
    exact a.evaluate_eq hseal

/-- A node that reads sealed tables fails only if the scoring of a candidate does. -/
theorem run_eq (hin : n.inputTables b = .ok tables) (hseal : ∀ tb ∈ tables, tb.isSealed = true) :
    n.run s b = do
      return .full n.label s (← s.candidates.mapM (n.confidence tables (n.score s tables))) := by
  rw [run, hin]
  show (n.ownScore s tables >>= _) = _
  rw [ownScore_eq hseal]
  show (s.candidates.mapM (n.confidence tables (n.score s tables)) >>= _) = _
  cases hm : s.candidates.mapM (n.confidence tables (n.score s tables)) with
  | error e => rfl
  | ok confidences =>
    have hlen := Fallible.length_of_mapM_eq_ok hm
    show ((Table.empty n.label).setAll (s.candidates.zip confidences) >>= _) = _
    rw [Table.setAll_candidates hlen]
    exact Table.sealOver_candidates hlen

/-- What a node gives to a candidate is the same whether its inputs are looked up in their tables or
computed anew. -/
theorem confidence_eq (hn : n.Admissible) {inputs : List Valuation}
    (hlen : inputs.length = n.inputs.length)
    (htables : List.Forall₂ (fun v tb => v.table s = .ok tb) inputs tables)
    (hc : c ∈ s.candidates) :
    n.confidence tables (n.score s tables) c = n.valueFrom s inputs c := by
  cases hk : n.kind with
  | inner a children =>
    have hvalues : inputs.mapM (fun v => v.value c) = .ok (tables.map fun tb => tb.get c) := by
      rw [Fallible.mapM_eq_ok_iff, List.forall₂_map_right_iff]
      exact htables.imp fun v tb h => Valuation.value_eq_get h hc
    simp only [confidence, carriedOver, isDependent, score, valueFrom, hk, hvalues]
    rfl
  | leaf h dependencies =>
    have hdeps : h.kind = .dependent ↔ dependencies ≠ [] := by simpa [Admissible, hk] using hn
    have hlen : inputs.length = dependencies.length := by simpa [Node.inputs, hk] using hlen
    cases htables with
    | nil =>
      have hnil : dependencies = [] := List.length_eq_zero_iff.mp hlen.symm
      have hstandalone : h.kind ≠ .dependent := fun e => hdeps.mp e hnil
      simp [confidence, carriedOver, isDependent, score, valueFrom, hk, hstandalone,
        Context.ofModels]
    | @cons base tb inputs tables hbase hrest =>
      have hdependent : h.kind = .dependent := hdeps.mpr fun e => by simp [e] at hlen
      have hread : (base :: inputs).mapM (fun v => v.table s) = .ok (tb :: tables) :=
        Fallible.mapM_eq_ok_iff.mpr (.cons hbase hrest)
      simp only [confidence, carriedOver, isDependent, score, valueFrom, hk, hdependent,
        decide_true, hread, Valuation.value_eq_get hbase hc]
      cases hdef : (tb.get c).isDefined <;> simp [hdef, bind, Except.bind, pure, Except.pure]

end Node

namespace Tree

variable {t : Tree} {b : Board} {done : List NodeId} {id : NodeId} {n : Node}

theorem label_eq (hn : t.nodes[id]? = some n) : Node.labelIn t.nodes id = n.label := by
  rw [Node.labelIn, hn]

theorem node_eq_ok (hn : t.nodes[id]? = some n) : t.node id = .ok n := by
  rw [node, hn]

theorem inputs_eq (hn : t.nodes[id]? = some n) : t.inputs id = n.inputs := by
  rw [inputs, Node.inputsIn, hn]

theorem admissible (hn : t.nodes[id]? = some n) : n.Admissible :=
  Node.validate_eq_ok_iff.mp (t.valid n (List.mem_of_getElem? hn))

/-! ## The board during a run -/

variable (t s) in
/-- A board holds exactly the tables of some nodes that have run, as the recursion gives them. -/
structure Filled (done : List NodeId) (b : Board) : Prop where
  ids : b.tables.map Prod.fst = done
  table_eq : ∀ e ∈ b.tables, t.table s e.1 = .ok e.2

theorem filled_empty (t : Tree) (s : CandidateSpace) : t.Filled s [] .empty :=
  ⟨rfl, by simp [Board.empty]⟩

theorem Filled.publish (h : t.Filled s done b) {tb : Table} (htb : t.table s id = .ok tb) :
    t.Filled s (done ++ [id]) ⟨b.tables ++ [(id, tb)]⟩ where
  ids := by rw [List.map_append, h.ids]; rfl
  table_eq e he := by
    rcases List.mem_append.mp he with he | he
    · exact h.table_eq e he
    · obtain rfl := List.mem_singleton.mp he
      exact htb

theorem Filled.exists_table?_iff (h : t.Filled s done b) :
    (∃ tb, b.table? id = some tb) ↔ id ∈ done := by
  rw [Board.exists_table?_eq_some_iff, h.ids]

theorem Filled.table_eq_of_table? (h : t.Filled s done b) {tb : Table}
    (htb : b.table? id = some tb) : t.table s id = .ok tb :=
  h.table_eq _ (Board.mem_of_table?_eq_some htb)

/-- The inputs of a node have their tables on the board once they have run. -/
theorem Filled.exists_inputTables (h : t.Filled s done b) (hin : ∀ i ∈ n.inputs, i ∈ done) :
    ∃ tables, n.inputTables b = .ok tables ∧
      List.Forall₂ (fun i tb => t.table s i = .ok tb) n.inputs tables := by
  have hget : ∀ i ∈ n.inputs, ∃ tb, b.get i n.label = .ok tb := fun i hi => by
    obtain ⟨tb, htb⟩ := h.exists_table?_iff.mpr (hin i hi)
    exact ⟨tb, Board.get_eq_ok_iff.mpr htb⟩
  obtain ⟨tables, htables⟩ := Fallible.exists_mapM_eq_ok_iff.mpr hget
  refine ⟨tables, htables, (Fallible.mapM_eq_ok_iff.mp htables).imp fun i tb htb => ?_⟩
  exact h.table_eq_of_table? (Board.get_eq_ok_iff.mp htb)

theorem isSealed_of_forall₂ {ids : List NodeId}
    (h : List.Forall₂ (fun i tb => t.table s i = .ok tb) ids tables) :
    ∀ tb ∈ tables, tb.isSealed = true := by
  induction h with
  | nil => simp
  | cons htb _ ih => exact List.forall_mem_cons.mpr ⟨Valuation.isSealed_table htb, ih⟩

/-- What the recursion gives to a candidate, from the tables of the inputs. -/
theorem value_eq_confidence (hn : t.nodes[id]? = some n)
    (htables : List.Forall₂ (fun i tb => t.table s i = .ok tb) n.inputs tables)
    (hc : c ∈ s.candidates) :
    t.value s id c = n.confidence tables (n.score s tables) c := by
  rw [value_eq hn]
  refine (Node.confidence_eq (admissible hn) (List.length_map _) ?_ hc).symm
  rw [List.forall₂_map_left_iff]
  exact htables

/-- A pass over a node whose inputs have run publishes the table that the recursion gives to the
node, if the recursion does not fail. -/
theorem pass_eq (h : t.Filled s done b) (hn : t.nodes[id]? = some n) (hnew : id ∉ done)
    (hin : ∀ i ∈ n.inputs, i ∈ done) (cancelled : Bool) :
    t.pass s cancelled id b =
      if cancelled then .error (.cancelled n.label)
      else do return ⟨b.tables ++ [(id, ← t.table s id)]⟩ := by
  obtain ⟨tables, hread, htables⟩ := h.exists_inputTables hin
  have hrun : n.run s b = t.table s id := by
    rw [Node.run_eq hread (isSealed_of_forall₂ htables), table, Valuation.table, valuation,
      label_eq hn]
    rw [Fallible.mapM_congr fun c hc => value_eq_confidence hn htables hc]
  rw [pass, node_eq_ok hn]
  show (if cancelled then _ else _) = _
  rw [hrun]
  cases htb : t.table s id with
  | error e => rfl
  | ok tb =>
    have hpublish : b.publish id tb = .ok ⟨b.tables ++ [(id, tb)]⟩ :=
      Board.publish_eq_ok (Valuation.isSealed_table htb) (h.ids ▸ hnew)
    show (if cancelled then _ else b.publish id tb) = _
    rw [hpublish]
    rfl

end Tree

end TraceRecovery
