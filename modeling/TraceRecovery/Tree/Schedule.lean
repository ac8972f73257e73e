import TraceRecovery.Result.Board
import TraceRecovery.SortedSet

/-!
# Scheduling

The order in which the nodes of a tree run, from what each node reads. All nodes are sorted so that
each comes after its inputs (`sort`). Of these, only the nodes that the root reads, directly or
through others, are run (`order`). They are run in waves: the level of a node is one more than the
greatest level of its inputs, found in one pass over the sorted nodes, and a wave holds the nodes of
one level.

`Legal` is what a sorted list, and every other order in which nodes may be taken, has to satisfy.
-/

namespace TraceRecovery

namespace Schedule

/-- Whether nodes may be taken in the order of a list once some are done: none is taken twice, and
each only after all of its inputs. -/
def Legal (inputs : NodeId → List NodeId) (done : List NodeId) : List NodeId → Prop
  | [] => True
  | id :: rest =>
    id ∉ done ∧ (∀ i ∈ inputs id, i ∈ done) ∧ Legal inputs (done ++ [id]) rest

theorem legal_append {inputs : NodeId → List NodeId} {done l r : List NodeId} :
    Legal inputs done (l ++ r) ↔ Legal inputs done l ∧ Legal inputs (done ++ l) r := by
  induction l generalizing done with
  | nil => simp [Legal]
  | cons id l ih =>
    simp only [List.cons_append, Legal, ih, and_assoc, List.append_assoc, List.nil_append]

/-- Nodes that are new and whose inputs are all done may be taken in any order. -/
theorem legal_of_forall {inputs : NodeId → List NodeId} {done l : List NodeId} (hn : l.Nodup)
    (h : ∀ id ∈ l, id ∉ done ∧ ∀ i ∈ inputs id, i ∈ done) : Legal inputs done l := by
  induction l generalizing done with
  | nil => trivial
  | cons id l ih =>
    obtain ⟨hid, hn⟩ := List.nodup_cons.mp hn
    obtain ⟨hnew, hin⟩ := h id List.mem_cons_self
    refine ⟨hnew, hin, ih hn fun j hj => ?_⟩
    obtain ⟨hjnew, hjin⟩ := h j (List.mem_cons_of_mem _ hj)
    refine ⟨?_, fun i hi => List.mem_append_left _ (hjin i hi)⟩
    simp only [List.mem_append, List.mem_singleton, not_or]
    exact ⟨hjnew, fun e => hid (e ▸ hj)⟩

/-! ## Sorting -/

/-- Lists waiting nodes behind those that are listed already, round by round: a round takes the
nodes whose inputs have all been listed. The nodes left in the end each have an input that has not
been. A round takes at least one node, so there need not be more rounds than nodes waiting. -/
def listReady (inputs : NodeId → List NodeId) (rounds : Nat) (listed waiting : List NodeId) :
    List NodeId × List NodeId :=
  match rounds with
  | 0 => (listed, waiting)
  | rounds + 1 =>
    let ready := waiting.filter fun id => (inputs id).all listed.contains
    if ready.isEmpty then (listed, waiting)
    else listReady inputs rounds (listed ++ ready)
      (waiting.filter fun id => !(inputs id).all listed.contains)

/-- The nodes below a number, sorted so that each comes after its inputs. -/
structure Sorting (inputs : NodeId → List NodeId) (count : Nat) where
  ids : List NodeId
  legal : Legal inputs [] ids
  mem_iff : ∀ id, id ∈ ids ↔ id < count

variable {inputs : NodeId → List NodeId}

theorem legal_listReady {rounds : Nat} {listed waiting : List NodeId}
    (hl : Legal inputs [] listed) (hn : waiting.Nodup) (hd : ∀ id ∈ waiting, id ∉ listed) :
    Legal inputs [] (listReady inputs rounds listed waiting).1 := by
  induction rounds generalizing listed waiting with
  | zero => exact hl
  | succ rounds ih =>
    simp only [listReady]
    split
    · exact hl
    · refine ih (legal_append.mpr ⟨hl, legal_of_forall (hn.filter _) fun id hid => ?_⟩)
        (hn.filter _) fun id hid => ?_
      · obtain ⟨hw, hr⟩ := List.mem_filter.mp hid
        exact ⟨hd id hw, by simpa using hr⟩
      · obtain ⟨hw, hr⟩ := List.mem_filter.mp hid
        simp only [List.mem_append, List.mem_filter, not_or, not_and]
        exact ⟨hd id hw, fun _ h => by simp [h] at hr⟩

/-- Every node is either listed or left. -/
theorem mem_listReady {rounds : Nat} {listed waiting : List NodeId} {id : NodeId} :
    id ∈ (listReady inputs rounds listed waiting).1 ∨
        id ∈ (listReady inputs rounds listed waiting).2 ↔ id ∈ listed ∨ id ∈ waiting := by
  induction rounds generalizing listed waiting with
  | zero => rfl
  | succ rounds ih =>
    simp only [listReady]
    split
    · rfl
    · simp only [ih, List.mem_append, List.mem_filter, Bool.not_eq_true']
      cases (inputs id).all listed.contains <;> simp

/-- The node that some steps lead to, each from a node to its first input that is stuck. -/
def follow (inputs : NodeId → List NodeId) (stuck : List NodeId) : Nat → NodeId → NodeId
  | 0, id => id
  | steps + 1, id => follow inputs stuck steps (((inputs id).find? stuck.contains).getD id)

/-- The nodes below a number, sorted; or a node on a cycle. Every node that is left unsorted has an
input that is, so as many steps as there are nodes lead onto a cycle. -/
def sort (inputs : NodeId → List NodeId) (count : Nat) : Except NodeId (Sorting inputs count) :=
  match h : listReady inputs count [] (List.range count) with
  | (ids, []) =>
    .ok {
      ids
      legal := by
        have legal : Legal inputs [] (listReady inputs count [] (List.range count)).1 :=
          legal_listReady trivial List.nodup_range (by simp)
        rwa [h] at legal
      mem_iff := fun id => by
        have mem : id ∈ (listReady inputs count [] (List.range count)).1 ∨
            id ∈ (listReady inputs count [] (List.range count)).2 ↔
              id ∈ [] ∨ id ∈ List.range count := mem_listReady
        simpa [h] using mem }
  | (_, id :: stuck) => .error (follow inputs (id :: stuck) count id)

/-! ## Levels and waves -/

/-- The nodes that a root reads, directly or through others, itself included. A node comes after its
inputs in a sorted list, so it is enough to go through the list once, from its end. -/
def needed (inputs : NodeId → List NodeId) (sorted : List NodeId) (root : NodeId) : List NodeId :=
  sorted.foldr (fun id wanted => if wanted.contains id then wanted ++ inputs id else wanted) [root]

/-- The sorted nodes that a root needs. -/
def order (inputs : NodeId → List NodeId) (sorted : List NodeId) (root : NodeId) : List NodeId :=
  sorted.filter (needed inputs sorted root).contains

/-- The least level above those of some nodes. -/
def levelAbove (levels : List Nat) (ids : List NodeId) : Nat :=
  (ids.map fun i => levels.getD i 0 + 1).max?.getD 0

/-- The levels of nodes by their numbers, one node after another. -/
def levels (inputs : NodeId → List NodeId) (count : Nat) (order : List NodeId) : List Nat :=
  order.foldl (fun known id => known.set id (levelAbove known (inputs id))) (List.replicate count 0)

/-- The nodes of each level in ascending order, from the lowest level that has any. -/
def waves (levels : List Nat) (order : List NodeId) : List (List NodeId) :=
  (SortedSet.ofList (order.map fun id => levels.getD id 0)).elements.map fun level =>
    (SortedSet.ofList (order.filter fun id => levels.getD id 0 == level)).elements

/-- Whether a list takes the nodes of some waves wave by wave, within a wave in any order. -/
def TakesTurns : List (List NodeId) → List NodeId → Prop
  | [], ids => ids = []
  | wave :: waves, ids =>
    ∃ first rest, ids = first ++ rest ∧ first.Perm wave ∧ TakesTurns waves rest

theorem takesTurns_flatten (waves : List (List NodeId)) : TakesTurns waves waves.flatten := by
  induction waves with
  | nil => rfl
  | cons wave waves ih => exact ⟨wave, waves.flatten, rfl, .refl wave, ih⟩

end Schedule

end TraceRecovery
