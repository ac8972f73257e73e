import Mathlib.Data.Finset.Sort
import TraceRecovery.Proofs.Tree.Numbering
import TraceRecovery.Tree.Graph

/-!
# Inputs and readers

The graph of a tree has an edge from each input of a node to the node, so what stands at the other
ends of a node's edges are its inputs in one direction and its readers in the other
(`Tree.mem_edges_graph`). Both ends of an edge are nodes (`Tree.lt_of_across?`). Sorting and then
erasing repetitions lists a set in ascending order, whatever the order and number of its elements
before (`eraseReps_mergeSort`).
-/

namespace TraceRecovery

/-! ## Lists without repetition -/

theorem eraseRepsBy_loop_eq {α : Type} (r : α → α → Bool) (a : α) (l acc : List α) :
    List.eraseRepsBy.loop r a l acc = acc.reverse ++ List.eraseRepsBy.loop r a l [] := by
  induction l generalizing a acc with
  | nil => simp [List.eraseRepsBy.loop]
  | cons b l ih =>
    rw [List.eraseRepsBy.loop, List.eraseRepsBy.loop]
    cases r a b with
    | true => exact ih a acc
    | false => rw [ih b (a :: acc), ih b [a], List.reverse_cons, List.append_assoc]; rfl

theorem eraseReps_cons_cons (a b : Nat) (l : List Nat) :
    (a :: b :: l).eraseReps =
      if a = b then (b :: l).eraseReps else a :: (b :: l).eraseReps := by
  simp only [List.eraseReps, List.eraseRepsBy]
  rw [List.eraseRepsBy.loop]
  split
  · rename_i h
    rw [if_pos (beq_iff_eq.mp h), beq_iff_eq.mp h]
  · rename_i h
    rw [if_neg (beq_eq_false_iff_ne.mp h), eraseRepsBy_loop_eq]
    rfl

@[simp]
theorem mem_eraseReps {a : Nat} {l : List Nat} : a ∈ l.eraseReps ↔ a ∈ l := by
  induction l with
  | nil => rfl
  | cons b l ih =>
    cases l with
    | nil => rfl
    | cons c l =>
      rw [eraseReps_cons_cons]
      split
      · rename_i h
        rw [ih, h]
        simp
      · rw [List.mem_cons, ih, ← List.mem_cons]

theorem pairwise_eraseReps {l : List Nat} (h : l.Pairwise (· ≤ ·)) :
    l.eraseReps.Pairwise (· < ·) := by
  induction l with
  | nil => exact .nil
  | cons b l ih =>
    obtain ⟨hb, hl⟩ := List.pairwise_cons.mp h
    cases l with
    | nil => exact List.pairwise_singleton _ b
    | cons c l =>
      rw [eraseReps_cons_cons]
      split
      · exact ih hl
      · rename_i hne
        refine List.pairwise_cons.mpr ⟨fun a ha => ?_, ih hl⟩
        rw [mem_eraseReps] at ha
        have hbc := hb c List.mem_cons_self
        have hca : c ≤ a := by
          rcases List.mem_cons.mp ha with rfl | ha
          · exact le_rfl
          · exact (List.pairwise_cons.mp hl).1 a ha
        omega

/-- Sorting and then erasing repetitions lists the elements in ascending order, each once. -/
theorem eraseReps_mergeSort (l : List Nat) : l.mergeSort.eraseReps = l.toFinset.sort := by
  have hsorted : l.mergeSort.Pairwise (· ≤ ·) := List.pairwise_mergeSort' (· ≤ ·) l
  refine (pairwise_eraseReps hsorted).eq_of_mem_iff (Finset.sortedLT_sort _).pairwise fun a => ?_
  rw [mem_eraseReps, List.mem_mergeSort, Finset.mem_sort, List.mem_toFinset]

/-! ## Edges -/

namespace Direction

variable {place other input reader : Nat}

theorem across?_toInputs_eq_some_iff :
    toInputs.across? place (input, reader) = some other ↔ reader = place ∧ input = other := by
  simp [across?]

theorem across?_toReaders_eq_some_iff :
    toReaders.across? place (input, reader) = some other ↔ input = place ∧ reader = other := by
  simp [across?]

end Direction

namespace Graph

theorem mem_addReader {edges : Array (Nat × Nat)} {n : NumberedNode} {edge : Nat × Nat} :
    edge ∈ addReader edges n ↔ edge ∈ edges ∨ edge.1 ∈ n.inputs ∧ edge.2 = n.id := by
  have heq : addReader edges n = edges ++ (n.inputs.map fun i => (i, n.id)).toArray :=
    List.foldl_push_eq_append
  obtain ⟨input, reader⟩ := edge
  simp [heq, eq_comm]

/-- There is an edge from each input of a node to the node, and no other. -/
theorem mem_edges_ofNodes {nodes : Array NumberedNode} {edge : Nat × Nat} :
    edge ∈ (ofNodes nodes).edges ↔ ∃ n ∈ nodes, edge.1 ∈ n.inputs ∧ edge.2 = n.id := by
  have hfold (l : List NumberedNode) (edges : Array (Nat × Nat)) :
      edge ∈ l.foldl addReader edges ↔
        edge ∈ edges ∨ ∃ n ∈ l, edge.1 ∈ n.inputs ∧ edge.2 = n.id := by
    induction l generalizing edges with
    | nil => simp
    | cons n l ih => rw [List.foldl_cons, ih, mem_addReader, List.exists_mem_cons_iff, or_assoc]
  rw [ofNodes, ← Array.foldl_toList, hfold]
  simp

end Graph

namespace Tree

variable {t : Tree} {v : Traversal} {a b id place : NodeId}

theorem mem_inputs_iff : a ∈ t.inputs b ↔ ∃ n, t.nodes[b]? = some n ∧ a ∈ n.inputs := by
  refine ⟨Node.exists_of_mem_inputsIn, ?_⟩
  rintro ⟨n, hn, ha⟩
  rwa [inputs, Node.inputsIn, hn]

/-- Only nodes are inputs, and only nodes have inputs. -/
theorem lt_of_mem_inputs (h : a ∈ t.inputs b) : a < t.size ∧ b < t.size := by
  have hb : b < t.size := Node.lt_of_mem_inputsIn h
  have ha := t.sorting.legal.inputs_mem ((t.sorting.mem_iff b).mpr hb) a h
  exact ⟨(t.sorting.mem_iff a).mp ha, hb⟩

theorem getElem?_numbered (t : Tree) (place : NodeId) :
    t.numbered[place]? = t.nodes[place]?.map fun n => (⟨n, place⟩ : NumberedNode) := by
  simp [numbered]

theorem getElem?_ids_graph (h : place < t.size) : t.graph.ids[place]? = some place := by
  rw [graph, Graph.ofNodes, Array.getElem?_map, getElem?_numbered,
    List.getElem?_eq_getElem h]
  rfl

theorem size_ids_graph (t : Tree) : t.graph.ids.size = t.size := by
  simp [graph, Graph.ofNodes, numbered, size]

theorem mem_edges_graph : (a, b) ∈ t.graph.edges ↔ a ∈ t.inputs b := by
  rw [graph, Graph.mem_edges_ofNodes, mem_inputs_iff]
  constructor
  · rintro ⟨n, hn, ha, rfl⟩
    obtain ⟨place, hplace⟩ := Array.mem_iff_getElem?.mp hn
    rw [getElem?_numbered] at hplace
    obtain ⟨m, hm, rfl⟩ := Option.map_eq_some_iff.mp hplace
    exact ⟨m, hm, ha⟩
  · rintro ⟨m, hm, ha⟩
    refine ⟨⟨m, b⟩, Array.mem_of_getElem? (i := b) ?_, ha, rfl⟩
    rw [getElem?_numbered, hm]
    rfl

/-- Both ends of an edge are nodes. -/
theorem lt_of_across? {direction : Direction} {edge : Nat × Nat} (hedge : edge ∈ t.graph.edges)
    (h : direction.across? id edge = some a) : id < t.size ∧ a < t.size := by
  obtain ⟨hinput, hreader⟩ := lt_of_mem_inputs (mem_edges_graph.mp hedge)
  cases direction with
  | toInputs =>
    obtain ⟨rfl, rfl⟩ := Direction.across?_toInputs_eq_some_iff.mp h
    exact ⟨hreader, hinput⟩
  | toReaders =>
    obtain ⟨rfl, rfl⟩ := Direction.across?_toReaders_eq_some_iff.mp h
    exact ⟨hinput, hreader⟩

/-- The neighbors of a node are the nodes at the other ends of its edges, however these are gone
through. -/
theorem neighbors_graph_eq {direction : Direction} {nodes : Finset NodeId}
    (h : ∀ other, other ∈ nodes ↔
      ∃ edge ∈ t.graph.edges, direction.across? id edge = some other) :
    t.graph.neighbors v direction id = nodes.sort := by
  rw [Graph.neighbors, size_ids_graph]
  split
  · rw [eraseReps_mergeSort]
    congr 1
    ext other
    rw [List.mem_toFinset, List.mem_filterMap, h]
    constructor
    · rintro ⟨place, hplace, hother⟩
      obtain ⟨edge, hedge, hacross⟩ := (v.mem_neighbors _ _ _ _).mp hplace
      rw [getElem?_ids_graph (lt_of_across? hedge hacross).2] at hother
      cases hother
      exact ⟨edge, hedge, hacross⟩
    · rintro ⟨edge, hedge, hacross⟩
      exact ⟨other, (v.mem_neighbors _ _ _ _).mpr ⟨edge, hedge, hacross⟩,
        getElem?_ids_graph (lt_of_across? hedge hacross).2⟩
  · -- No edge begins at a number without node, so there is nothing at the other ends.
    rename_i hid
    have hnone : nodes = ∅ := Finset.eq_empty_of_forall_notMem fun other hother => by
      obtain ⟨edge, hedge, hacross⟩ := (h other).mp hother
      exact hid (lt_of_across? hedge hacross).1
    rw [hnone]
    exact (Finset.sort_empty _).symm

theorem inputsOf_graph_eq (t : Tree) (v : Traversal) (id : NodeId) :
    t.graph.inputsOf v id = (t.inputs id).toFinset.sort := by
  refine neighbors_graph_eq fun other => ?_
  rw [List.mem_toFinset]
  constructor
  · intro h
    exact ⟨(other, id), mem_edges_graph.mpr h, if_pos rfl⟩
  · rintro ⟨⟨input, reader⟩, hedge, hacross⟩
    obtain ⟨rfl, rfl⟩ := Direction.across?_toInputs_eq_some_iff.mp hacross
    exact mem_edges_graph.mp hedge

theorem readersOf_graph_eq (t : Tree) (v : Traversal) (id : NodeId) :
    t.graph.readersOf v id = ((Finset.range t.size).filter fun b => id ∈ t.inputs b).sort := by
  refine neighbors_graph_eq fun other => ?_
  rw [Finset.mem_filter, Finset.mem_range]
  constructor
  · rintro ⟨-, h⟩
    exact ⟨(id, other), mem_edges_graph.mpr h, if_pos rfl⟩
  · rintro ⟨⟨input, reader⟩, hedge, hacross⟩
    obtain ⟨rfl, rfl⟩ := Direction.across?_toReaders_eq_some_iff.mp hacross
    have hreads := mem_edges_graph.mp hedge
    exact ⟨(lt_of_mem_inputs hreads).2, hreads⟩

/-- The nodes of a built tree are those of the draft, with the same numbers. -/
theorem numbered_eq_of_build {h : NumberedDraft.History} (hr : h.Records) {root : NodeId}
    (hb : h.draft.build root = .ok t) : t.numbered = h.draft.nodes := by
  obtain ⟨-, -, hnodes, -⟩ := (h.draft.toDraft.build_ends root).of_eq_ok hb
  refine Array.ext_getElem? fun place => ?_
  rw [getElem?_numbered, hnodes, NumberedDraft.getElem?_nodes_toDraft, Option.map_map]
  cases hn : h.draft.nodes[place]? with
  | none => rfl
  | some n =>
    obtain ⟨hid, -⟩ := hr.getElem?_eq_some_iff.mp hn
    obtain ⟨n, id⟩ := n
    exact congrArg (fun id => some (NumberedNode.mk n id)) hid.symm

/-- However the edges of a tree are gone through, the inputs and the readers of each node are listed
in ascending order, each once, and are converse to each other. A number without node has neither,
and no node is its own input, not even through others. The graph of a built tree is that of the
draft's nodes, whose numbers are those that have been told. -/
theorem inputs_and_readers_are_converse (t : Tree) (v : Traversal) :
    let g := t.graph
    (∀ id, g.inputsOf v id = (t.inputs id).toFinset.sort) ∧
      (∀ id, g.readersOf v id =
        ((Finset.range t.size).filter fun reader => id ∈ t.inputs reader).sort) ∧
      (∀ a b, a ∈ g.inputsOf v b ↔ b ∈ g.readersOf v a) ∧
      (∀ id, t.size ≤ id → g.inputsOf v id = [] ∧ g.readersOf v id = []) ∧
      (∀ id, ¬ Relation.TransGen (fun b a => a ∈ g.inputsOf v b) id id) ∧
      ∀ name calls root, let h := NumberedDraft.History.after name calls
        h.draft.build root = .ok t →
          g = .ofNodes h.draft.nodes ∧ h.handedOut = List.range t.size ∧
          ∀ (id : NodeId) (n : NumberedNode), h.draft.nodes[id]? = some n →
            t.inputs id = n.inputs := by
  intro g
  have hinputs (a b : NodeId) : a ∈ g.inputsOf v b ↔ a ∈ t.inputs b := by
    rw [inputsOf_graph_eq, Finset.mem_sort, List.mem_toFinset]
  have hreaders (a b : NodeId) : b ∈ g.readersOf v a ↔ a ∈ t.inputs b := by
    rw [readersOf_graph_eq, Finset.mem_sort, Finset.mem_filter, Finset.mem_range]
    exact ⟨And.right, fun h => ⟨(lt_of_mem_inputs h).2, h⟩⟩
  refine ⟨inputsOf_graph_eq t v, readersOf_graph_eq t v, fun a b => ?_, fun id hid => ?_,
    fun id hcycle => ?_, ?_⟩
  · rw [hinputs, hreaders]
  · refine ⟨List.eq_nil_iff_forall_not_mem.mpr fun a ha => ?_,
      List.eq_nil_iff_forall_not_mem.mpr fun b hb => ?_⟩
    · exact absurd (lt_of_mem_inputs ((hinputs a id).mp ha)).2 (Nat.not_lt.mpr hid)
    · exact absurd (lt_of_mem_inputs ((hreaders id b).mp hb)).1 (Nat.not_lt.mpr hid)
  · simp only [hinputs] at hcycle
    exact t.sorting.acyclic (fun _ _ h => (lt_of_mem_inputs h).2) id hcycle
  · intro name calls root h hb
    have hr : h.Records := .after name calls
    have hnumbered := numbered_eq_of_build hr hb
    have hsize : h.draft.nodes.size = t.size := by
      rw [← hnumbered]
      simp [numbered, size]
    refine ⟨congrArg Graph.ofNodes hnumbered, hsize ▸ hr.handedOut, fun id n hn => ?_⟩
    rw [← hnumbered, getElem?_numbered] at hn
    obtain ⟨m, hm, rfl⟩ := Option.map_eq_some_iff.mp hn
    rw [inputs, Node.inputsIn, hm]

end Tree

end TraceRecovery
