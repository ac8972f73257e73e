import Mathlib.Data.Finset.Card
import Mathlib.Data.Set.Function
import TraceRecovery.Proofs.Tree.Order

/-!
# Sorting fails exactly on cycles

A node that no round of sorting takes has an input that no round takes either
(`exists_input_unlisted`). So from such a node one can go on from input to input for ever, and since
there are only finitely many nodes, that leads onto a cycle after as many steps as there are nodes
(`exists_pos_iterate_eq`). That is the node with which `sort` fails (`cycle_of_sort_eq_error`); and
where it succeeds there is no cycle (`Sorting.acyclic`).
-/

namespace TraceRecovery

namespace Schedule

variable {inputs : NodeId → List NodeId} {count : Nat}

theorem Sorting.acyclic (g : Sorting inputs count) (h : ∀ id i, i ∈ inputs id → id < count) :
    Acyclic inputs :=
  acyclic_of_legal g.legal fun id i hi => (g.mem_iff id).mpr (h id i hi)

theorem mem_waiting_of_left {rounds : Nat} {listed waiting : List NodeId} {id : NodeId}
    (h : id ∈ (listReady inputs rounds listed waiting).2) : id ∈ waiting := by
  induction rounds generalizing listed waiting with
  | zero => exact h
  | succ rounds ih =>
    simp only [listReady] at h
    split at h
    · exact h
    · exact (List.mem_filter.mp (ih h)).1

/-- With enough rounds, each node that is left has an input that has not been listed. -/
theorem exists_input_unlisted {rounds : Nat} {listed waiting : List NodeId} {id : NodeId}
    (hr : waiting.length ≤ rounds) (h : id ∈ (listReady inputs rounds listed waiting).2) :
    ∃ i ∈ inputs id, i ∉ (listReady inputs rounds listed waiting).1 := by
  induction rounds generalizing listed waiting with
  | zero =>
    have : waiting = [] := List.length_eq_zero_iff.mp (by omega)
    subst this
    cases h
  | succ rounds ih =>
    simp only [listReady] at h ⊢
    split at h
    · rename_i he
      rw [if_pos he]
      have hid : ¬ (inputs id).all listed.contains = true := fun ha => by
        rw [List.isEmpty_iff] at he
        exact absurd (List.mem_filter.mpr ⟨h, ha⟩) (he ▸ List.not_mem_nil)
      simpa using hid
    · rename_i he
      rw [if_neg he]
      refine ih ?_ h
      have hlen := List.length_eq_length_filter_add
        (fun id => (inputs id).all listed.contains) (l := waiting)
      have hpos : 0 < (waiting.filter fun id => (inputs id).all listed.contains).length := by
        rwa [List.length_pos_iff_ne_nil, ne_eq, ← List.isEmpty_iff]
      omega

/-! ## Following inputs onto a cycle -/

/-- As many steps as a finite set has elements lead from one of them into a loop. -/
theorem exists_pos_iterate_eq {f : NodeId → NodeId} {s : Finset NodeId}
    (hf : Set.MapsTo f (s : Set NodeId) s) {n : Nat} (hn : s.card ≤ n) {x : NodeId} (hx : x ∈ s) :
    ∃ p, 0 < p ∧ f^[p] (f^[n] x) = f^[n] x := by
  have hmem : ∀ k, f^[k] x ∈ s := fun k => hf.iterate k hx
  have hcard : s.card < (Finset.range (n + 1)).card := by rw [Finset.card_range]; omega
  obtain ⟨i, hi, j, hj, hne, he⟩ :=
    Finset.exists_ne_map_eq_of_card_lt_of_maps_to hcard (f := fun k => f^[k] x) fun k _ => hmem k
  rw [Finset.mem_range] at hi hj
  wlog hij : i < j generalizing i j with H
  · exact H j hj i hi hne.symm he.symm (by omega)
  refine ⟨j - i, by omega, ?_⟩
  calc f^[j - i] (f^[n] x) = f^[n - i] (f^[j] x) := by
        rw [← Function.iterate_add_apply, ← Function.iterate_add_apply]; congr 1; omega
    _ = f^[n - i] (f^[i] x) := by rw [← he]
    _ = f^[n] x := by rw [← Function.iterate_add_apply]; congr 1; omega

/-- If each step goes from a node to one of its inputs, then so do several, through others. -/
theorem transGen_iterate {f : NodeId → NodeId} {s : Set NodeId} (hf : Set.MapsTo f s s)
    (hreads : ∀ x ∈ s, Reads inputs x (f x)) (n : Nat) {x : NodeId} (hx : x ∈ s) :
    Relation.TransGen (Reads inputs) x (f^[n + 1] x) := by
  induction n generalizing x with
  | zero => exact .single (hreads x hx)
  | succ n ih => exact .head (hreads x hx) (ih (hf hx))

/-- The first input of a node that is stuck. -/
def firstStuck (inputs : NodeId → List NodeId) (stuck : List NodeId) (id : NodeId) : NodeId :=
  ((inputs id).find? stuck.contains).getD id

theorem follow_eq_iterate (stuck : List NodeId) (n : Nat) (id : NodeId) :
    follow inputs stuck n id = (firstStuck inputs stuck)^[n] id := by
  induction n generalizing id with
  | zero => rfl
  | succ n ih => rw [Function.iterate_succ_apply, follow, ih, firstStuck]

theorem firstStuck_spec {stuck : List NodeId} {id : NodeId} (h : ∃ i ∈ inputs id, i ∈ stuck) :
    firstStuck inputs stuck id ∈ stuck ∧ Reads inputs id (firstStuck inputs stuck id) := by
  obtain ⟨i, hi, hstuck⟩ := h
  cases hfind : (inputs id).find? stuck.contains with
  | none => exact absurd (List.contains_iff_mem.mpr hstuck) (List.find?_eq_none.mp hfind i hi)
  | some k =>
    rw [firstStuck, hfind, Option.getD_some]
    exact ⟨List.contains_iff_mem.mp (List.find?_some hfind), List.mem_of_find?_eq_some hfind⟩

/-- If each of some nodes has an input among them, then following their inputs for as many steps as
there are nodes leads onto a cycle. -/
theorem cycle_of_follow {stuck : List NodeId} {id : NodeId} (hid : id ∈ stuck)
    (h : ∀ j ∈ stuck, ∃ i ∈ inputs j, i ∈ stuck) (hcount : ∀ j ∈ stuck, j < count) :
    follow inputs stuck count id ∈ stuck ∧
      Relation.TransGen (Reads inputs) (follow inputs stuck count id)
        (follow inputs stuck count id) := by
  have hmaps : Set.MapsTo (firstStuck inputs stuck) stuck.toFinset stuck.toFinset := fun j hj =>
    List.mem_toFinset.mpr (firstStuck_spec (h j (List.mem_toFinset.mp hj))).1
  have hreads : ∀ j ∈ (stuck.toFinset : Set NodeId), Reads inputs j (firstStuck inputs stuck j) :=
    fun j hj => (firstStuck_spec (h j (List.mem_toFinset.mp hj))).2
  have hcard : stuck.toFinset.card ≤ count := by
    have hsub : stuck.toFinset ⊆ Finset.range count := fun j hj =>
      Finset.mem_range.mpr (hcount j (List.mem_toFinset.mp hj))
    simpa using Finset.card_le_card hsub
  have hid := List.mem_toFinset.mpr hid
  obtain ⟨p, hp, hloop⟩ := exists_pos_iterate_eq hmaps hcard hid
  have hmem := hmaps.iterate count hid
  rw [follow_eq_iterate]
  refine ⟨List.mem_toFinset.mp hmem, ?_⟩
  have hlast := transGen_iterate hmaps hreads (p - 1) hmem
  rwa [Nat.sub_add_cancel hp, hloop] at hlast

/-- Sorting fails with a node on a cycle. -/
theorem cycle_of_sort_eq_error {id : NodeId} (hin : ∀ j < count, ∀ i ∈ inputs j, i < count)
    (h : sort inputs count = .error id) :
    id < count ∧ Relation.TransGen (Reads inputs) id id := by
  unfold sort at h
  split at h
  · cases h
  · rename_i listed first stuck hl
    obtain rfl : follow inputs (first :: stuck) count first = id := Except.error.inj h
    have hleft : (listReady inputs count [] (List.range count)).2 = first :: stuck := by rw [hl]
    have hlt : ∀ j ∈ first :: stuck, j < count := fun j hj =>
      List.mem_range.mp (mem_waiting_of_left (hleft ▸ hj))
    have hstuck : ∀ j ∈ first :: stuck, ∃ i ∈ inputs j, i ∈ first :: stuck := by
      intro j hj
      rw [← hleft] at hj ⊢
      obtain ⟨i, hi, hnot⟩ := exists_input_unlisted (by simp) hj
      have hrange : i ∈ List.range count :=
        List.mem_range.mpr (hin j (hlt j (hleft ▸ hj)) i hi)
      exact ⟨i, hi, (mem_listReady.mpr (.inr hrange)).resolve_left hnot⟩
    obtain ⟨hm, hc⟩ := cycle_of_follow List.mem_cons_self hstuck hlt
    exact ⟨hlt _ hm, hc⟩

end Schedule

end TraceRecovery
