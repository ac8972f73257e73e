import TraceRecovery.Proofs.Result.Filling
import TraceRecovery.Proofs.Tree.Order
import TraceRecovery.Tree.Draft

/-!
# What a node computes

The confidence that a node gives to a candidate, by recursion over the nodes that it reads
(`Tree.value`). There are no runs, tables or boards here, and a node that several others read is
computed for each of them. A heuristic may look at all of the results of its dependencies, so what
the recursion yields of a node is a function of the candidate, from which `Valuation.table` makes a
table where one is needed.

`Tree.value_eq` is the equation of the recursion, which `Node.valueFrom` states for each kind of
node.
-/

namespace TraceRecovery

/-- What a node gives to each candidate, under the node's label. -/
structure Valuation where
  label : String
  value : Candidate → Except TraceError Confidence

namespace Valuation

/-- The table of what is given to all candidates, if something is given to each. -/
def table (v : Valuation) (s : CandidateSpace) : Except TraceError Table := do
  return .full v.label s (← s.candidates.mapM v.value)

variable {v : Valuation} {s : CandidateSpace} {tb : Table}

theorem table_eq_ok_iff : v.table s = .ok tb ↔ ∃ confidences,
    s.candidates.mapM v.value = .ok confidences ∧ tb = .full v.label s confidences := by
  rw [table, Fallible.bind_eq_ok_iff]
  refine exists_congr fun confidences => and_congr_right fun _ => ?_
  exact ⟨fun h => (Except.ok.inj h).symm, fun h => h ▸ rfl⟩

theorem exists_table_eq_ok_iff :
    (∃ tb, v.table s = .ok tb) ↔ ∀ c ∈ s.candidates, ∃ confidence, v.value c = .ok confidence := by
  rw [← Fallible.exists_mapM_eq_ok_iff]
  constructor
  · rintro ⟨tb, h⟩
    obtain ⟨confidences, h, -⟩ := table_eq_ok_iff.mp h
    exact ⟨confidences, h⟩
  · rintro ⟨confidences, h⟩
    exact ⟨_, table_eq_ok_iff.mpr ⟨confidences, h, rfl⟩⟩

theorem exists_of_table_eq_error {e : TraceError} (h : v.table s = .error e) :
    ∃ c ∈ s.candidates, v.value c = .error e := by
  rcases Fallible.bind_eq_error_iff.mp h with h | ⟨confidences, -, h⟩
  · exact Fallible.exists_of_mapM_eq_error h
  · cases h

variable (h : v.table s = .ok tb)

include h

theorem isSealed_table : tb.isSealed = true := by
  obtain ⟨confidences, -, rfl⟩ := table_eq_ok_iff.mp h
  rfl

theorem written_table : tb.written = s.candidates := by
  obtain ⟨confidences, hm, rfl⟩ := table_eq_ok_iff.mp h
  exact Table.written_full (Fallible.length_of_mapM_eq_ok hm)

/-- A table has what is given to each candidate. -/
theorem value_eq_get {c : Candidate} (hc : c ∈ s.candidates) : v.value c = .ok (tb.get c) := by
  obtain ⟨confidences, hm, rfl⟩ := table_eq_ok_iff.mp h
  exact Table.get_full hm hc

end Valuation

namespace Node

/-- What a node gives to a candidate, from what its inputs give:

* an aggregation combines the confidences of its children, in their order,
* a standalone heuristic scores the candidate,
* a dependent heuristic takes over the confidence of its first dependency where that is defined, and
  otherwise scores the candidate with the results of its dependencies, in their order. -/
def valueFrom (n : Node) (s : CandidateSpace) (inputs : List Valuation) (c : Candidate) :
    Except TraceError Confidence :=
  match n.kind with
  | .inner a _ => do a.combine (← inputs.mapM fun v => v.value c)
  | .leaf h _ =>
    let models := Context.ofModels s.architecture s.code
    match h.kind, inputs with
    | .dependent, base :: _ => do
      let inherited ← base.value c
      if inherited.isDefined then return inherited
      h.score c { models with dependencies := ← inputs.mapM fun v => v.table s }
    | _, _ => h.score c models

end Node

namespace Tree

/-- The place of a node among the sorted nodes, by which the recursion over inputs ends. -/
def rank (t : Tree) (id : NodeId) : Nat := t.sorting.ids.idxOf id

theorem rank_lt {t : Tree} {id i : NodeId} {n : Node} (hn : t.nodes[id]? = some n)
    (hi : i ∈ n.inputs) : t.rank i < t.rank id := by
  have hlt : id < t.nodes.length := (List.getElem?_eq_some_iff.mp hn).1
  have hin : i ∈ Node.inputsIn t.nodes id := by rwa [Node.inputsIn, hn]
  exact t.sorting.legal.idxOf_lt ((t.sorting.mem_iff id).mpr hlt) hin

/-- What a node gives to a candidate, by recursion over its inputs. -/
def value (t : Tree) (s : CandidateSpace) (id : NodeId) (c : Candidate) :
    Except TraceError Confidence :=
  match _found : t.nodes[id]? with
  | none => .error (.unresolved (.nodeOfTree id t.name))
  | some n => n.valueFrom s
      (n.inputs.attach.map fun i => ⟨Node.labelIn t.nodes i.1, fun c => t.value s i.1 c⟩) c
termination_by t.rank id
decreasing_by exact rank_lt ‹_› i.2

/-- What a node gives to each candidate, under its label. -/
def valuation (t : Tree) (s : CandidateSpace) (id : NodeId) : Valuation :=
  ⟨Node.labelIn t.nodes id, t.value s id⟩

/-- The table of what a node gives to the candidates. -/
def table (t : Tree) (s : CandidateSpace) (id : NodeId) : Except TraceError Table :=
  (t.valuation s id).table s

variable {t : Tree} {s : CandidateSpace} {id : NodeId} {n : Node}

/-- What a node gives follows from what its inputs give. -/
theorem value_eq (hn : t.nodes[id]? = some n) (c : Candidate) :
    t.value s id c = n.valueFrom s (n.inputs.map (t.valuation s)) c := by
  have hinputs : n.inputs.attach.map (fun i => t.valuation s i.1) = n.inputs.map (t.valuation s) :=
    List.attach_map_val
  rw [value.eq_def, hn, ← hinputs]
  rfl

end Tree

end TraceRecovery
