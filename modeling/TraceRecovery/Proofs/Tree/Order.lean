import Mathlib.Data.List.Basic
import Mathlib.Logic.Relation
import TraceRecovery.Tree.Schedule

/-!
# Legal orders of nodes

What the runs and schedules of a tree need of the order in which nodes are taken:

* `Legal.nodup`, `Legal.inputs_before`: each node is taken once, after its inputs;
* `Legal.filter`: leaving out nodes that no other node of the order reads keeps an order legal;
* `acyclic_of_legal`: nodes that have a legal order do not read themselves, not even through others;
* `mem_needed_iff`, `mem_order_iff`: going through the sorted nodes once, from the end, finds
  exactly the nodes that the root reads, directly or through others.
-/

namespace TraceRecovery

namespace Schedule

/-- A node reads the result of another. -/
def Reads (inputs : NodeId → List NodeId) (id i : NodeId) : Prop := i ∈ inputs id

/-- No node reads itself, directly or through others. -/
def Acyclic (inputs : NodeId → List NodeId) : Prop :=
  ∀ id, ¬ Relation.TransGen (Reads inputs) id id

variable {inputs : NodeId → List NodeId} {done l r ids : List NodeId} {id : NodeId}

theorem Legal.nodup (h : Legal inputs done l) (hd : done.Nodup) : (done ++ l).Nodup := by
  induction l generalizing done with
  | nil => simpa using hd
  | cons id l ih =>
    obtain ⟨hnew, -, hl⟩ := h
    have hd' : (done ++ [id]).Nodup :=
      List.nodup_append.mpr ⟨hd, by simp, fun a ha b hb => by
        rw [List.mem_singleton.mp hb]
        exact fun e => hnew (e ▸ ha)⟩
    simpa using ih hl hd'

/-- Each node of a legal order comes after its inputs. -/
theorem Legal.inputs_before (h : Legal inputs [] (l ++ id :: r)) : ∀ i ∈ inputs id, i ∈ l := by
  obtain ⟨-, -, hin, -⟩ := legal_append.mp h
  simpa using hin

theorem Legal.notMem_before (h : Legal inputs [] (l ++ id :: r)) : id ∉ l := by
  have hn := h.nodup List.nodup_nil
  rw [List.nil_append] at hn
  exact fun hm => (List.nodup_append.mp hn).2.2 id hm id List.mem_cons_self rfl

theorem Legal.inputs_mem (h : Legal inputs [] ids) (hid : id ∈ ids) : ∀ i ∈ inputs id, i ∈ ids := by
  obtain ⟨l, r, rfl⟩ := List.append_of_mem hid
  exact fun i hi => List.mem_append_left _ (h.inputs_before i hi)

/-- The nodes of a legal order that satisfy a condition are in a legal order if the inputs of each
of them satisfy it too. -/
theorem Legal.filter {p : NodeId → Bool} (h : Legal inputs done l)
    (hp : ∀ id ∈ l, p id = true → ∀ i ∈ inputs id, p i = true) :
    Legal inputs (done.filter p) (l.filter p) := by
  induction l generalizing done with
  | nil => trivial
  | cons id l ih =>
    obtain ⟨hnew, hin, hl⟩ := h
    have ih := ih hl fun j hj => hp j (List.mem_cons_of_mem _ hj)
    rw [List.filter_append] at ih
    cases hid : p id with
    | false => simpa [hid] using ih
    | true =>
      rw [List.filter_cons_of_pos hid]
      refine ⟨fun hm => hnew (List.mem_filter.mp hm).1, fun i hi => ?_, by simpa [hid] using ih⟩
      exact List.mem_filter.mpr ⟨hin i hi, hp id List.mem_cons_self hid i hi⟩

/-- An input has a smaller place in a legal order. -/
theorem Legal.idxOf_lt (h : Legal inputs [] ids) (hid : id ∈ ids) {i : NodeId}
    (hi : i ∈ inputs id) : ids.idxOf i < ids.idxOf id := by
  obtain ⟨l, r, rfl⟩ := List.append_of_mem hid
  have hil : i ∈ l := h.inputs_before i hi
  rw [List.idxOf_append_of_mem hil, List.idxOf_append_of_notMem h.notMem_before]
  exact Nat.lt_add_right _ (List.idxOf_lt_length_of_mem hil)

/-- The nodes that read a node come after it in a legal order. -/
theorem Legal.mem_after (h : Legal inputs [] (l ++ id :: r)) {j : NodeId} (hj : j ∈ l ++ id :: r)
    (hid : id ∈ inputs j) : j ∈ r := by
  rcases List.mem_append.mp hj with hl | hr
  · obtain ⟨a, b, rfl⟩ := List.append_of_mem hl
    have h' : Legal inputs [] (a ++ j :: (b ++ id :: r)) := by simpa using h
    exact absurd (List.mem_append_left _ (h'.inputs_before id hid)) h.notMem_before
  · rcases List.mem_cons.mp hr with rfl | hr
    · exact absurd (h.inputs_before j hid) h.notMem_before
    · exact hr

/-- Nodes are on no cycle if each reads only nodes with lower numbers. -/
theorem acyclic_of_lt (h : ∀ id i, i ∈ inputs id → i < id) : Acyclic inputs := by
  have hlt : ∀ id i, Relation.TransGen (Reads inputs) id i → i < id := by
    intro id i hr
    induction hr with
    | single hr => exact h _ _ hr
    | tail _ hr ih => exact Nat.lt_trans (h _ _ hr) ih
  exact fun id hr => Nat.lt_irrefl _ (hlt id id hr)

/-- Nodes are on no cycle if all that read anything have a legal order. -/
theorem acyclic_of_legal (h : Legal inputs [] ids) (hids : ∀ id i, i ∈ inputs id → id ∈ ids) :
    Acyclic inputs := by
  have hlt : ∀ id i, Relation.TransGen (Reads inputs) id i → ids.idxOf i < ids.idxOf id := by
    intro id i hr
    induction hr with
    | single hr => exact h.idxOf_lt (hids _ _ hr) hr
    | tail _ hr ih => exact Nat.lt_trans (h.idxOf_lt (hids _ _ hr) hr) ih
  exact fun id hr => Nat.lt_irrefl _ (hlt id id hr)

/-! ## The needed nodes -/

/-- A node is the root, or one that the root reads directly or through others. -/
def Needed (inputs : NodeId → List NodeId) (root : NodeId) : NodeId → Prop :=
  Relation.ReflTransGen (Reads inputs) root

theorem needed_cons (sorted : List NodeId) (root : NodeId) :
    needed inputs (id :: sorted) root =
      if (needed inputs sorted root).contains id then needed inputs sorted root ++ inputs id
      else needed inputs sorted root := rfl

theorem Needed.mem {root : NodeId} (h : Legal inputs [] ids) (hroot : root ∈ ids)
    (hid : Needed inputs root id) : id ∈ ids := by
  induction hid with
  | refl => exact hroot
  | tail _ hr ih => exact h.inputs_mem ih _ hr

/-- What has been found when a sorted list has been gone through from its end up to some node: the
root, and the inputs of the needed nodes on the way. A needed node is found before it is reached,
since the nodes that read it come behind it. -/
theorem mem_needed_suffix {root : NodeId} (h : Legal inputs [] (l ++ r)) (hroot : root ∈ l ++ r)
    (i : NodeId) :
    i ∈ needed inputs r root ↔ i = root ∨ ∃ id ∈ r, Needed inputs root id ∧ i ∈ inputs id := by
  induction r generalizing l i with
  | nil => simp [needed]
  | cons j r ih =>
    have h' : Legal inputs [] ((l ++ [j]) ++ r) := by simpa using h
    have ih' := ih h' (by simpa using hroot)
    have hj : j ∈ needed inputs r root ↔ Needed inputs root j := by
      rw [ih']
      constructor
      · rintro (rfl | ⟨id, -, hid, hji⟩)
        · exact .refl
        · exact hid.tail hji
      · intro hj
        rcases Relation.ReflTransGen.cases_tail hj with rfl | ⟨id, hid, hji⟩
        · exact .inl rfl
        exact .inr ⟨id, h.mem_after (Needed.mem h hroot hid) hji, hid, hji⟩
    rw [needed_cons]
    split
    · rename_i hc
      rw [List.contains_iff_mem, hj] at hc
      rw [List.mem_append, ih']
      simp only [List.mem_cons, exists_eq_or_imp, hc, true_and]
      rw [or_assoc]
      exact or_congr_right or_comm
    · rename_i hc
      rw [List.contains_iff_mem, hj] at hc
      rw [ih']
      simp only [List.mem_cons, exists_eq_or_imp, hc, false_and, false_or]

variable {count : Nat} (g : Sorting inputs count) {root : NodeId}

include g

theorem mem_needed_iff (hroot : root < count) :
    id ∈ needed inputs g.ids root ↔ Needed inputs root id := by
  have hm : root ∈ g.ids := (g.mem_iff root).mpr hroot
  rw [mem_needed_suffix (l := []) g.legal hm id]
  constructor
  · rintro (rfl | ⟨j, -, hj, hi⟩)
    · exact .refl
    · exact hj.tail hi
  · intro hid
    rcases Relation.ReflTransGen.cases_tail hid with rfl | ⟨j, hj, hi⟩
    · exact .inl rfl
    · exact .inr ⟨j, Needed.mem g.legal hm hj, hj, hi⟩

/-- The order of a run takes exactly the needed nodes. -/
theorem mem_order_iff (hroot : root < count) :
    id ∈ order inputs g.ids root ↔ Needed inputs root id := by
  rw [order, List.mem_filter, List.contains_iff_mem, mem_needed_iff g hroot]
  exact ⟨And.right, fun h => ⟨h.mem g.legal ((g.mem_iff root).mpr hroot), h⟩⟩

theorem legal_order (hroot : root < count) : Legal inputs [] (order inputs g.ids root) := by
  refine g.legal.filter fun id _ hid i hi => ?_
  rw [List.contains_iff_mem, mem_needed_iff g hroot] at hid ⊢
  exact hid.tail hi

end Schedule

end TraceRecovery
