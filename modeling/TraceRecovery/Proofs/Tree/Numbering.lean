import TraceRecovery.Proofs.Tree.Building
import TraceRecovery.Tree.Evaluation
import TraceRecovery.Tree.NumberedDraft

/-!
# Numbers of nodes

The nodes of a draft stand in the places of their numbers, whatever calls have been made on it.

What a call does is said once (`Step`). A history is a draft with the calls that have been made on
it and what was answered. It tells of each node how it was added and what has been declared of it
since (`History.current`), and each call keeps the draft in step with what its history tells
(`History.Records.call`). The numbers are forgotten in a plain draft, on which the same calls do the
same (`History.progress_after`). `Aligned` is what follows for the draft.
-/

namespace TraceRecovery

/-- The same kind with further dependencies. What an inner node reads does not change. -/
def NodeKind.declare : NodeKind → List NodeId → NodeKind
  | leaf h dependencies, more => leaf h (dependencies ++ more)
  | inner a children, _ => inner a children

@[simp]
theorem NodeKind.declare_nil (k : NodeKind) : k.declare [] = k := by
  cases k with
  | leaf h dependencies => exact congrArg (leaf h) (List.append_nil dependencies)
  | inner a children => rfl

theorem NodeKind.eq_leaf_of_declare {k : NodeKind} {l dependencies : List NodeId} {h : Heuristic}
    (hk : k.declare l = leaf h dependencies) :
    ∃ before, k = leaf h before ∧ dependencies = before ++ l := by
  cases k with
  | leaf h' before =>
    cases hk
    exact ⟨before, rfl, rfl⟩
  | inner a children => cases hk

theorem NodeKind.declare_append (k : NodeKind) (l l' : List NodeId) :
    k.declare (l ++ l') = (k.declare l).declare l' := by
  cases k with
  | leaf h dependencies => exact congrArg (leaf h) (List.append_assoc dependencies l l').symm
  | inner a children => rfl

/-- Whether a node, when it is run, has another as its base: its heuristic reads the table of that
one as the base, and what that table defines is carried over. -/
def Node.HasBase (n : Node) (base : NodeId) : Prop :=
  ∀ (b : Board) (tables : List Table), n.inputTables b = .ok tables →
    ∃ table, b.get base n.label = .ok table ∧
      (∀ models c : Context, models.withDependencies tables = .ok c → c.base = .ok table) ∧
      ∀ t, n.carriedOver tables t =
        if n.isDependent && (table.get t).isDefined then some (table.get t) else none

/-- The base of a node is the first node that it reads. -/
theorem Node.hasBase_of_inputs {n : Node} {first : NodeId} {rest : List NodeId}
    (h : n.inputs = first :: rest) : n.HasBase first := by
  intro b tables htables
  rw [inputTables, h, Fallible.mapM_eq_ok_iff, List.forall₂_cons_left_iff] at htables
  obtain ⟨table, others, htable, -, rfl⟩ := htables
  refine ⟨table, htable, fun models c hc => ?_, fun t => ?_⟩
  · obtain ⟨-, -, hc⟩ := Fallible.bind_eq_ok_iff.mp hc
    cases hc
    rfl
  · unfold carriedOver
    cases n.isDependent with
    | false => rfl
    | true => simp only [Bool.true_and]

namespace NumberedDraft

open Draft (Call)

/-! ## Single calls -/

section Calls

variable {d d' : NumberedDraft} {α β : Type} {x : Update α} {f : α → Update β} {n : NumberedNode}
  {id place : NodeId} {c : Call} {e : TraceError}

/-- The effect of a call. A call that adds a node tells its number. -/
def update : Call → Update (Option NodeId)
  | .addLeaf h => some <$> addLeaf h
  | .addInner a children => some <$> addInner a children
  | .dependsOn id dependency => do
    dependsOn id dependency
    return none
  | .relabel id label => do
    relabel id label
    return none

/-- What a draft answers to a call. -/
def answer (d : NumberedDraft) (c : Call) : Except TraceError (Option NodeId) :=
  ((update c).run.run d).1

/-- The draft that a call leaves behind. -/
def next (d : NumberedDraft) (c : Call) : NumberedDraft := ((update c).run.run d).2

/-- The draft with one more node. -/
def withNode (d : NumberedDraft) (n : Node) : NumberedDraft :=
  { d with nodes := d.nodes.push ⟨n, d.nodes.size⟩ }

/-- The draft with another node in a place. -/
def withNodeAt (d : NumberedDraft) (place : NodeId) (n : NumberedNode) : NumberedDraft :=
  { d with nodes := d.nodes.setIfInBounds place n }

theorem run_bind_of_ok {a : α} (h : x.run.run d = (.ok a, d')) :
    (x >>= f).run.run d = (f a).run.run d' := by
  rw [ExceptT.run_bind, StateT.run_bind, h]
  rfl

theorem run_bind_of_error (h : x.run.run d = (.error e, d')) :
    (x >>= f).run.run d = (.error e, d') := by
  rw [ExceptT.run_bind, StateT.run_bind, h]
  rfl

theorem run_get : (getThe NumberedDraft : Update NumberedDraft).run.run d = (.ok d, d) :=
  rfl

theorem run_node_eq_ok (h : d.nodes[place]? = some n) : (node place).run.run d = (.ok n, d) := by
  rw [node, run_bind_of_ok run_get, h]
  rfl

theorem run_node_eq_error (h : d.nodes[place]? = none) :
    (node place).run.run d = (.error (.unresolved (.node place)), d) := by
  rw [node, run_bind_of_ok run_get, h]
  rfl

/-- What a call does: it adds a node, changes one, or is refused. -/
inductive Step (d : NumberedDraft) : Call → Except TraceError (Option NodeId) → NumberedDraft → Prop
  | addLeaf {h : Heuristic} :
    Step d (.addLeaf h) (.ok (some d.nodes.size)) (d.withNode ⟨h.id, .leaf h []⟩)
  | addInner {a : Aggregation} {children : List NodeId} :
    Step d (.addInner a children) (.ok (some d.nodes.size)) (d.withNode ⟨a.name, .inner a children⟩)
  | dependsOn {id dependency : NodeId} {n : NumberedNode} {h : Heuristic}
      {dependencies : List NodeId} :
    d.nodes[id]? = some n → n.kind = .leaf h dependencies →
    Step d (.dependsOn id dependency) (.ok none)
      (d.withNodeAt id { n with kind := .leaf h (dependencies ++ [dependency]) })
  | innerDepends {id dependency : NodeId} {n : NumberedNode} {a : Aggregation}
      {children : List NodeId} :
    d.nodes[id]? = some n → n.kind = .inner a children →
    Step d (.dependsOn id dependency)
      (.error (.invalidArgument (.aggregationDependency n.label))) d
  | unknownDepends {id dependency : NodeId} :
    d.nodes[id]? = none → Step d (.dependsOn id dependency) (.error (.unresolved (.node id))) d
  | relabel {id : NodeId} {label : String} {n : NumberedNode} :
    d.nodes[id]? = some n → Step d (.relabel id label) (.ok none) (d.withNodeAt id { n with label })
  | unknownRelabel {id : NodeId} {label : String} :
    d.nodes[id]? = none → Step d (.relabel id label) (.error (.unresolved (.node id))) d

theorem Step.of_run {r : Except TraceError (Option NodeId)} (h : (update c).run.run d = (r, d'))
    (hs : Step d c r d') : Step d c (d.answer c) (d.next c) := by
  rwa [answer, next, h]

theorem step (d : NumberedDraft) (c : Call) : Step d c (d.answer c) (d.next c) := by
  cases c with
  | addLeaf h => exact .addLeaf
  | addInner a children => exact .addInner
  | dependsOn id dependency =>
    cases hn : d.nodes[id]? with
    | none =>
      exact .of_run (run_bind_of_error (run_bind_of_error (run_node_eq_error hn)))
        (.unknownDepends hn)
    | some n =>
      cases hk : n.kind with
      | leaf h dependencies =>
        refine .of_run (run_bind_of_ok (a := ()) ?_) (.dependsOn hn hk)
        rw [NumberedDraft.dependsOn, run_bind_of_ok (run_node_eq_ok hn), hk]
        rfl
      | inner a children =>
        refine .of_run (run_bind_of_error ?_) (.innerDepends hn hk)
        rw [NumberedDraft.dependsOn, run_bind_of_ok (run_node_eq_ok hn), hk]
        rfl
  | relabel id label =>
    cases hn : d.nodes[id]? with
    | none =>
      exact .of_run (run_bind_of_error (run_bind_of_error (run_node_eq_error hn)))
        (.unknownRelabel hn)
    | some n =>
      refine .of_run (run_bind_of_ok (a := ()) ?_) (.relabel hn)
      rw [NumberedDraft.relabel, run_bind_of_ok (run_node_eq_ok hn)]
      rfl

/-- A dependency is refused if there is no node or if it is an inner one. -/
theorem Step.dependsOn_eq_error_iff {dependency : NodeId}
    {r : Except TraceError (Option NodeId)} (h : Step d (.dependsOn id dependency) r d') :
    r = .error e ↔ d.nodes[id]? = none ∧ e = .unresolved (.node id) ∨
      ∃ n a children, d.nodes[id]? = some n ∧ n.kind = .inner a children ∧
        e = .invalidArgument (.aggregationDependency n.label) := by
  cases h with
  | dependsOn hn hk => simp [hn, hk]
  | innerDepends hn hk => simp [hn, hk, eq_comm]
  | unknownDepends hn => simp [hn, eq_comm]

/-- A label is refused if there is no node. -/
theorem Step.relabel_eq_error_iff {label : String} {r : Except TraceError (Option NodeId)}
    (h : Step d (.relabel id label) r d') :
    r = .error e ↔ d.nodes[id]? = none ∧ e = .unresolved (.node id) := by
  cases h with
  | relabel hn => simp [hn]
  | unknownRelabel hn => simp [hn, eq_comm]

/-- A call that is refused leaves the draft as it is. -/
theorem Step.eq_of_error (h : Step d c (.error e) d') : d' = d := by
  cases h <;> rfl

end Calls

/-! ## Sequences of calls -/

/-- A call with what was answered. -/
structure Answered where
  call : Call
  answer : Except TraceError (Option NodeId)

namespace Answered

/-- The number that the call told. -/
def handedOut? (a : Answered) : Option NodeId := a.answer.toOption.join

/-- The node that the call is to add. -/
def added? (a : Answered) : Option Node :=
  match a.call with
  | .addLeaf h => some ⟨h.id, .leaf h []⟩
  | .addInner a children => some ⟨a.name, .inner a children⟩
  | .dependsOn _ _ => none
  | .relabel _ _ => none

/-- The dependency that the call declared for the node in a place. -/
def dependency? (place : NodeId) : Answered → Option NodeId
  | ⟨.dependsOn id dependency, .ok _⟩ => if id = place then some dependency else none
  | _ => none

/-- The label that the call gave to the node in a place. -/
def label? (place : NodeId) : Answered → Option String
  | ⟨.relabel id label, .ok _⟩ => if id = place then some label else none
  | _ => none

/-- The node in a place after the call. -/
def change (a : Answered) (place : NodeId) (n : Node) : Node :=
  ⟨(a.label? place).getD n.label, n.kind.declare (a.dependency? place).toList⟩

theorem dependencies_of_added? {a : Answered} {n : Node} {h : Heuristic}
    {dependencies : List NodeId} (hn : a.added? = some n) (hk : n.kind = .leaf h dependencies) :
    dependencies = [] := by
  unfold added? at hn
  split at hn <;> cases hn <;> cases hk
  rfl

theorem dependency?_of_ne {id place dependency : NodeId} {o : Option NodeId} (h : id ≠ place) :
    dependency? place ⟨.dependsOn id dependency, .ok o⟩ = none :=
  if_neg h

theorem label?_of_ne {id place : NodeId} {label : String} {o : Option NodeId} (h : id ≠ place) :
    label? place ⟨.relabel id label, .ok o⟩ = none :=
  if_neg h

end Answered

section Places

variable {d d' : NumberedDraft} {c : Call} {r : Except TraceError (Option NodeId)} {place : NodeId}

theorem Step.handedOut?_eq (h : Step d c r d') :
    Answered.handedOut? ⟨c, r⟩ = (Answered.added? ⟨c, r⟩).map fun _ => d.nodes.size := by
  cases h <;> rfl

theorem Step.size_nodes (h : Step d c r d') :
    d'.nodes.size = d.nodes.size + (Answered.added? ⟨c, r⟩).toList.length := by
  cases h with
  | addLeaf => exact Array.size_push ..
  | addInner => exact Array.size_push ..
  | dependsOn hn hk => exact Array.size_setIfInBounds ..
  | innerDepends hn hk => rfl
  | unknownDepends hn => rfl
  | relabel hn => exact Array.size_setIfInBounds ..
  | unknownRelabel hn => rfl

/-- Only nodes of the draft are changed. -/
theorem Step.untouched (h : Step d c r d') (hle : d.nodes.size ≤ place) :
    Answered.dependency? place ⟨c, r⟩ = none ∧ Answered.label? place ⟨c, r⟩ = none := by
  have hne {id : NodeId} {n : NumberedNode} (hn : d.nodes[id]? = some n) : id ≠ place := by
    rintro rfl
    exact absurd (Array.getElem?_eq_some_iff.mp hn).1 (Nat.not_lt.mpr hle)
  cases h with
  | addLeaf => exact ⟨rfl, rfl⟩
  | addInner => exact ⟨rfl, rfl⟩
  | dependsOn hn hk => exact ⟨Answered.dependency?_of_ne (hne hn), rfl⟩
  | innerDepends hn hk => exact ⟨rfl, rfl⟩
  | unknownDepends hn => exact ⟨rfl, rfl⟩
  | relabel hn => exact ⟨rfl, Answered.label?_of_ne (hne hn)⟩
  | unknownRelabel hn => exact ⟨rfl, rfl⟩

/-- A call that does not touch the node in a place leaves it as it is. -/
theorem Answered.change_eq_self {a : Answered} {n : Node}
    (h : a.dependency? place = none ∧ a.label? place = none) : a.change place n = n := by
  rw [change, h.1, h.2]
  exact congrArg (Node.mk n.label) n.kind.declare_nil

theorem map_change_eq_self {a : Answered} {o : Option NumberedNode}
    (h : a.dependency? place = none ∧ a.label? place = none) :
    (o.map fun n => (⟨a.change place n.toNode, n.id⟩ : NumberedNode)) = o := by
  simp only [Answered.change_eq_self h]
  exact Option.map_id'

theorem getElem?_withNode_of_lt {n : Node} (h : place < d.nodes.size) :
    (d.withNode n).nodes[place]? = d.nodes[place]? := by
  rw [withNode, Array.getElem?_push, if_neg h.ne]

theorem getElem?_withNode_of_le {n : Node} (h : d.nodes.size ≤ place) :
    (d.withNode n).nodes[place]? = [n][place - d.nodes.size]?.map fun n =>
      (⟨n, place⟩ : NumberedNode) := by
  rcases h.eq_or_lt with rfl | hlt
  · simp [withNode]
  · obtain ⟨k, hk⟩ := Nat.exists_eq_add_of_lt hlt
    simp [withNode, hk, Nat.add_assoc]

/-- Each node of the draft is changed as the call says. -/
theorem Step.getElem?_of_lt (h : Step d c r d') (hlt : place < d.nodes.size) :
    d'.nodes[place]? = d.nodes[place]?.map fun n =>
      (⟨Answered.change ⟨c, r⟩ place n.toNode, n.id⟩ : NumberedNode) := by
  cases h with
  | addLeaf => rw [map_change_eq_self ⟨rfl, rfl⟩, getElem?_withNode_of_lt hlt]
  | addInner => rw [map_change_eq_self ⟨rfl, rfl⟩, getElem?_withNode_of_lt hlt]
  | innerDepends hn hk => rw [map_change_eq_self ⟨rfl, rfl⟩]
  | unknownDepends hn => rw [map_change_eq_self ⟨rfl, rfl⟩]
  | unknownRelabel hn => rw [map_change_eq_self ⟨rfl, rfl⟩]
  | @dependsOn id dependency n k dependencies hn hk =>
    -- The call names one place, and touches no other.
    rw [withNodeAt, Array.getElem?_setIfInBounds]
    split
    · subst id
      rw [if_pos hlt, hn]
      simp [Answered.change, Answered.dependency?, Answered.label?, hk, NodeKind.declare]
    · rename_i hne
      exact (map_change_eq_self ⟨Answered.dependency?_of_ne hne, rfl⟩).symm
  | @relabel id label n hn =>
    rw [withNodeAt, Array.getElem?_setIfInBounds]
    split
    · subst id
      rw [if_pos hlt, hn]
      simp [Answered.change, Answered.dependency?, Answered.label?]
    · rename_i hne
      exact (map_change_eq_self ⟨rfl, Answered.label?_of_ne hne⟩).symm

/-- What an inner node reads is not changed. -/
theorem Step.inner_kind {n : NumberedNode} {a : Aggregation} {children : List NodeId}
    (h : Step d c r d') (hn : d.nodes[place]? = some n) (hk : n.kind = .inner a children) :
    ∃ n', d'.nodes[place]? = some n' ∧ n'.kind = .inner a children := by
  obtain ⟨hlt, -⟩ := Array.getElem?_eq_some_iff.mp hn
  refine ⟨_, (h.getElem?_of_lt hlt).trans (congrArg _ hn), ?_⟩
  simp only [Answered.change, hk, NodeKind.declare]

/-- An added node stands behind the others, with its place as its number. -/
theorem Step.getElem?_of_le (h : Step d c r d') (hle : d.nodes.size ≤ place) :
    d'.nodes[place]? = (Answered.added? ⟨c, r⟩).toList[place - d.nodes.size]?.map fun n =>
      (⟨n, place⟩ : NumberedNode) := by
  have hnone : d.nodes[place]? = none := Array.getElem?_eq_none hle
  cases h with
  | addLeaf => exact getElem?_withNode_of_le hle
  | addInner => exact getElem?_withNode_of_le hle
  | innerDepends hn hk => exact hnone
  | unknownDepends hn => exact hnone
  | unknownRelabel hn => exact hnone
  | dependsOn hn hk => exact Array.getElem?_eq_none ((Array.size_setIfInBounds ..).trans_le hle)
  | relabel hn => exact Array.getElem?_eq_none ((Array.size_setIfInBounds ..).trans_le hle)

end Places

/-- A draft with the calls that have been made on it, and what was answered. -/
structure History where
  draft : NumberedDraft
  answered : List Answered

namespace History

variable {h : History}

/-- The history with one more call. -/
def call (h : History) (c : Call) : History :=
  ⟨h.draft.next c, h.answered ++ [⟨c, h.draft.answer c⟩]⟩

/-- A new draft after some calls. -/
def after (name : String) (calls : List Call) : History := calls.foldl call ⟨.empty name, []⟩

/-- The numbers that have been told. -/
def handedOut (h : History) : List NodeId := h.answered.filterMap Answered.handedOut?

/-- The nodes that were to be added. -/
def added (h : History) : List Node := h.answered.filterMap Answered.added?

/-- The dependencies that have been declared for the node in a place. -/
def declared (h : History) (place : NodeId) : List NodeId :=
  h.answered.filterMap (Answered.dependency? place)

/-- The labels that the node in a place has been given. -/
def labels (h : History) (place : NodeId) : List String :=
  h.answered.filterMap (Answered.label? place)

/-- What a node in a place has become since it was added. -/
def current (h : History) (place : NodeId) (n : Node) : Node :=
  ⟨(h.labels place).getLast?.getD n.label, n.kind.declare (h.declared place)⟩

/-- The draft is what the history tells. -/
structure Records (h : History) : Prop where
  handedOut : h.handedOut = List.range h.draft.nodes.size
  getElem?_nodes : ∀ place : NodeId, h.draft.nodes[place]? =
    h.added[place]?.map fun n => (⟨h.current place n, place⟩ : NumberedNode)
  untouched : ∀ place, h.draft.nodes.size ≤ place → h.declared place = [] ∧ h.labels place = []

theorem filterMap_answered_call {α : Type} (f : Answered → Option α) (c : Call) :
    (h.call c).answered.filterMap f =
      h.answered.filterMap f ++ (f ⟨c, h.draft.answer c⟩).toList := by
  rw [call, List.filterMap_append]
  cases hf : f ⟨c, h.draft.answer c⟩ <;> simp [hf]

theorem current_call (c : Call) (place : NodeId) (n : Node) :
    (h.call c).current place n =
      Answered.change ⟨c, h.draft.answer c⟩ place (h.current place n) := by
  have hlabel (l : List String) (o : Option String) :
      (l ++ o.toList).getLast?.getD n.label = o.getD (l.getLast?.getD n.label) := by
    cases o <;> simp
  simp only [current, labels, declared, filterMap_answered_call, Answered.change, hlabel,
    NodeKind.declare_append]

/-- A node in a place that no call has touched is as it was added. -/
theorem current_eq_self {place : NodeId} {n : Node}
    (hu : h.declared place = [] ∧ h.labels place = []) : h.current place n = n := by
  rw [current, hu.1, hu.2, NodeKind.declare_nil]
  rfl

theorem Records.length_added (hr : h.Records) : h.added.length = h.draft.nodes.size := by
  have hnone (place : NodeId) : h.draft.nodes.size ≤ place ↔ h.added.length ≤ place := by
    rw [← Array.getElem?_eq_none_iff, ← List.getElem?_eq_none_iff, hr.getElem?_nodes,
      Option.map_eq_none_iff]
  exact Nat.le_antisymm ((hnone _).mp le_rfl) ((hnone _).mpr le_rfl)

theorem Records.empty (name : String) : Records ⟨.empty name, []⟩ where
  handedOut := rfl
  getElem?_nodes _ := rfl
  untouched _ _ := ⟨rfl, rfl⟩

theorem Records.handedOut_call (hr : h.Records) (c : Call) :
    (h.call c).handedOut = List.range (h.call c).draft.nodes.size := by
  have hstep := h.draft.step c
  rw [History.handedOut, filterMap_answered_call, hstep.handedOut?_eq]
  change h.handedOut ++ _ = List.range (h.draft.next c).nodes.size
  rw [hr.handedOut, hstep.size_nodes]
  cases Answered.added? ⟨c, h.draft.answer c⟩ with
  | none => exact List.append_nil _
  | some n => exact List.range_succ.symm

theorem Records.untouched_call (hr : h.Records) (c : Call) {place : NodeId}
    (hle : (h.call c).draft.nodes.size ≤ place) :
    (h.call c).declared place = [] ∧ (h.call c).labels place = [] := by
  have hstep := h.draft.step c
  have hle' : h.draft.nodes.size ≤ place :=
    (Nat.le_add_right _ _).trans (hstep.size_nodes.symm.le.trans hle)
  obtain ⟨hdeclared, hlabels⟩ := hr.untouched place hle'
  obtain ⟨hdependency, hlabel⟩ := hstep.untouched hle'
  rw [declared, labels, filterMap_answered_call, filterMap_answered_call, hdependency, hlabel]
  exact ⟨(List.append_nil _).trans hdeclared, (List.append_nil _).trans hlabels⟩

/-- The nodes of the draft are changed in their places. One that is added stands behind them, where
no call has touched it. -/
theorem Records.getElem?_nodes_call (hr : h.Records) (c : Call) (place : NodeId) :
    (h.call c).draft.nodes[place]? = (h.call c).added[place]?.map fun n =>
      (⟨(h.call c).current place n, place⟩ : NumberedNode) := by
  have hstep := h.draft.step c
  have hadded : (h.call c).added = h.added ++ (Answered.added? ⟨c, h.draft.answer c⟩).toList :=
    filterMap_answered_call _ c
  change (h.draft.next c).nodes[place]? = _
  rw [hadded]
  simp only [current_call]
  -- A node that was there before is changed once more; one that was not has only been added.
  rcases Nat.lt_or_ge place h.draft.nodes.size with hlt | hle
  · rw [List.getElem?_append_left (hr.length_added.symm ▸ hlt), hstep.getElem?_of_lt hlt,
      hr.getElem?_nodes, Option.map_map]
    rfl
  · rw [List.getElem?_append_right (hr.length_added.symm ▸ hle), hstep.getElem?_of_le hle,
      hr.length_added]
    simp only [current_eq_self (hr.untouched place hle),
      Answered.change_eq_self (hstep.untouched hle)]

theorem Records.call (hr : h.Records) (c : Call) : (h.call c).Records where
  handedOut := hr.handedOut_call c
  getElem?_nodes := hr.getElem?_nodes_call c
  untouched _ := hr.untouched_call c

theorem after_append_singleton (name : String) (calls : List Call) (c : Call) :
    after name (calls ++ [c]) = (after name calls).call c :=
  List.foldl_append

theorem Records.after (name : String) (calls : List Call) : (History.after name calls).Records := by
  induction calls using List.reverseRecOn with
  | nil => exact .empty name
  | append_singleton calls c ih =>
    rw [after_append_singleton]
    exact ih.call c

/-- What an inner node reads is not changed by further calls. -/
theorem inner_kind_after {name : String} {calls : List Call} {place : NodeId} {n : NumberedNode}
    {a : Aggregation} {children : List NodeId}
    (hn : (after name calls).draft.nodes[place]? = some n) (hk : n.kind = .inner a children)
    (more : List Call) : ∃ n', (after name (calls ++ more)).draft.nodes[place]? = some n' ∧
      n'.kind = .inner a children := by
  induction more using List.reverseRecOn with
  | nil => exact ⟨n, by rwa [List.append_nil], hk⟩
  | append_singleton more c ih =>
    obtain ⟨m, hm, hmk⟩ := ih
    rw [← List.append_assoc, after_append_singleton]
    exact ((after name (calls ++ more)).draft.step c).inner_kind hm hmk

/-- The node in a place carries the place as its number. It was added as the node of that number,
and has since become what has been declared of it. -/
theorem Records.getElem?_eq_some_iff (hr : h.Records) {place : NodeId} {n : NumberedNode} :
    h.draft.nodes[place]? = some n ↔
      n.id = place ∧ ∃ m, h.added[place]? = some m ∧ n.toNode = h.current place m := by
  rw [hr.getElem?_nodes, Option.map_eq_some_iff]
  constructor
  · rintro ⟨m, hm, rfl⟩
    exact ⟨rfl, m, hm, rfl⟩
  · rintro ⟨hid, m, hm, hn⟩
    obtain ⟨n, id⟩ := n
    exact ⟨m, hm, by rw [← hn, ← hid]⟩

/-- A leaf reads what has been declared for it. -/
theorem Records.dependencies_eq (hr : h.Records) {place : NodeId} {n : NumberedNode} {k : Heuristic}
    {dependencies : List NodeId} (hn : h.draft.nodes[place]? = some n)
    (hk : n.kind = .leaf k dependencies) : dependencies = h.declared place := by
  obtain ⟨-, m, hm, heq⟩ := hr.getElem?_eq_some_iff.mp hn
  obtain ⟨a, -, ha⟩ := List.mem_filterMap.mp (List.mem_of_getElem? hm)
  obtain ⟨before, hbefore, rfl⟩ :=
    NodeKind.eq_leaf_of_declare ((congrArg Node.kind heq).symm.trans hk)
  rw [Answered.dependencies_of_added? ha hbefore, List.nil_append]

theorem Records.mem_handedOut_iff (hr : h.Records) {id : NodeId} :
    id ∈ h.handedOut ↔ ∃ n, h.draft.nodes[id]? = some n := by
  rw [hr.handedOut, List.mem_range]
  exact ⟨fun h => ⟨_, Array.getElem?_eq_getElem h⟩, fun ⟨_, h⟩ =>
    (Array.getElem?_eq_some_iff.mp h).1⟩

end History

/-! ## Plain drafts -/

section Plain

variable {d d' : NumberedDraft} {c : Call} {r : Except TraceError (Option NodeId)} {place : NodeId}
  {n : NumberedNode}

theorem getElem?_nodes_toDraft (d : NumberedDraft) (place : NodeId) :
    d.toDraft.nodes[place]? = d.nodes[place]?.map NumberedNode.toNode := by
  rw [toDraft, List.getElem?_map, Array.getElem?_toList]

theorem toDraft_withNode (d : NumberedDraft) (n : Node) :
    (d.withNode n).toDraft = (d.toDraft.add n).2 := by
  simp [toDraft, withNode, Draft.add]

theorem toDraft_withNodeAt (d : NumberedDraft) (place : NodeId) (n : NumberedNode) :
    (d.withNodeAt place n).toDraft =
      { d.toDraft with nodes := d.toDraft.nodes.set place n.toNode } := by
  simp [toDraft, withNodeAt, List.map_set]

theorem node_toDraft_eq_ok (h : d.nodes[place]? = some n) :
    d.toDraft.node place = .ok n.toNode := by
  rw [Draft.node, getElem?_nodes_toDraft, h]
  rfl

theorem node_toDraft_eq_error (h : d.nodes[place]? = none) :
    d.toDraft.node place = .error (.unresolved (.node place)) := by
  rw [Draft.node, getElem?_nodes_toDraft, h]
  rfl

/-- A call does the same to the plain draft. -/
theorem Step.progress (h : Step d c r d') (told : List NodeId) :
    Draft.Progress.call ⟨d.toDraft, told⟩ c =
      ⟨d'.toDraft, told ++ (Answered.handedOut? ⟨c, r⟩).toList⟩ := by
  have hsize : d.toDraft.nodes.length = d.nodes.size := by simp [toDraft]
  have hkeep : told = told ++ [] := (List.append_nil told).symm
  cases h with
  | addLeaf =>
    rw [toDraft_withNode, ← hsize]
    rfl
  | addInner =>
    rw [toDraft_withNode, ← hsize]
    rfl
  | dependsOn hn hk =>
    simp only [Draft.Progress.call, Draft.dependsOn, node_toDraft_eq_ok hn, bind, Except.bind, hk]
    rw [toDraft_withNodeAt]
    exact congrArg _ hkeep
  | relabel hn =>
    simp only [Draft.Progress.call, Draft.relabel, node_toDraft_eq_ok hn, bind, Except.bind]
    rw [toDraft_withNodeAt]
    exact congrArg _ hkeep
  | innerDepends hn hk =>
    simp only [Draft.Progress.call, Draft.dependsOn, node_toDraft_eq_ok hn, bind, Except.bind, hk]
    exact congrArg _ hkeep
  | unknownDepends hn =>
    simp only [Draft.Progress.call, Draft.dependsOn, node_toDraft_eq_error hn, bind, Except.bind]
    exact congrArg _ hkeep
  | unknownRelabel hn =>
    simp only [Draft.Progress.call, Draft.relabel, node_toDraft_eq_error hn, bind, Except.bind]
    exact congrArg _ hkeep

/-- The plain draft and the numbers told are those of the same calls on a plain draft. -/
theorem History.progress_after (name : String) (calls : List Call) :
    Draft.Progress.after name calls =
      ⟨(after name calls).draft.toDraft, (after name calls).handedOut⟩ := by
  induction calls using List.reverseRecOn with
  | nil => rfl
  | append_singleton calls c ih =>
    rw [Draft.Progress.after, List.foldl_append]
    change (Draft.Progress.after name calls).call c = _
    rw [ih, after_append_singleton, ((after name calls).draft.step c).progress]
    exact congrArg _ (filterMap_answered_call _ c).symm

end Plain

/-- What a history tells of its draft, which is that of some calls on a new one. -/
structure Aligned (name : String) (calls : List Call) (h : History) : Prop where
  /-- The numbers told are those from 0 on, one for each node that was to be added. -/
  handedOut_eq : h.handedOut = List.range h.added.length
  size_eq : h.draft.nodes.size = h.added.length
  /-- A node carries its place as its number, and is what was added, with what has been declared of
  it since. -/
  getElem?_eq_some_iff : ∀ (place : NodeId) (n : NumberedNode), h.draft.nodes[place]? = some n ↔
    n.id = place ∧ ∃ m, h.added[place]? = some m ∧ n.toNode = h.current place m
  /-- A leaf reads the dependencies that were declared for it and not refused, in the order of the
  calls. -/
  dependencies_eq : ∀ (place : NodeId) (n : NumberedNode) k dependencies,
    h.draft.nodes[place]? = some n → n.kind = .leaf k dependencies →
      dependencies = h.declared place
  /-- The base of a leaf is the first of its dependencies. -/
  hasBase : ∀ (place : NodeId) (n : NumberedNode) k first rest,
    h.draft.nodes[place]? = some n → n.kind = .leaf k (first :: rest) → n.HasBase first
  /-- What an inner node reads is not changed by any further calls. -/
  inner_fixed : ∀ (place : NodeId) (n : NumberedNode) a children more,
    h.draft.nodes[place]? = some n → n.kind = .inner a children →
      ∃ n', (History.after name (calls ++ more)).draft.nodes[place]? = some n' ∧
        n'.kind = .inner a children
  /-- A dependency is refused exactly for a number that has not been told and for an inner node. -/
  dependsOn_eq_error_iff : ∀ id dependency e,
    h.draft.answer (.dependsOn id dependency) = .error e ↔
      id ∉ h.handedOut ∧ e = .unresolved (.node id) ∨
        ∃ n a children, h.draft.nodes[id]? = some n ∧ n.kind = .inner a children ∧
          e = .invalidArgument (.aggregationDependency n.label)
  relabel_eq_error_iff : ∀ id label e, h.draft.answer (.relabel id label) = .error e ↔
    id ∉ h.handedOut ∧ e = .unresolved (.node id)
  next_of_error : ∀ c e, h.draft.answer c = .error e → h.draft.next c = h.draft
  /-- The same calls on a plain draft make the plain draft and tell the same numbers. -/
  progress_eq : Draft.Progress.after name calls = ⟨h.draft.toDraft, h.handedOut⟩

/-- After any calls on a new draft, the refused ones among them, its nodes stand in the places of
their numbers, and are what was added and declared by the calls that were not refused. -/
theorem numbers_are_places (name : String) (calls : List Call) :
    Aligned name calls (.after name calls) := by
  let h := History.after name calls
  have hr : h.Records := .after name calls
  have hnone (id : NodeId) : h.draft.nodes[id]? = none ↔ id ∉ h.handedOut := by
    rw [hr.mem_handedOut_iff, Option.eq_none_iff_forall_ne_some, not_exists]
  exact
    { handedOut_eq := by rw [hr.length_added, hr.handedOut]
      size_eq := hr.length_added.symm
      getElem?_eq_some_iff := fun _ _ => hr.getElem?_eq_some_iff
      dependencies_eq := fun _ _ _ _ hn hk => hr.dependencies_eq hn hk
      hasBase := fun _ n _ first rest _ hk => by
        have hinputs : n.inputs = first :: rest := by rw [Node.inputs, hk]
        exact Node.hasBase_of_inputs hinputs
      inner_fixed := fun _ _ _ _ more hn hk => History.inner_kind_after hn hk more
      dependsOn_eq_error_iff := fun _ _ _ => by
        rw [(h.draft.step _).dependsOn_eq_error_iff, hnone]
      relabel_eq_error_iff := fun _ _ _ => by
        rw [(h.draft.step _).relabel_eq_error_iff, hnone]
      next_of_error := fun c e he => by
        have hstep := h.draft.step c
        rw [he] at hstep
        exact hstep.eq_of_error
      progress_eq := History.progress_after name calls }

end NumberedDraft

end TraceRecovery
