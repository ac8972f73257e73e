import Mathlib.Data.List.Chain
import Mathlib.Data.List.Lattice
import Mathlib.Order.Bounds.Basic
import TraceRecovery.Proofs.Tree.Building

/-!
# Waves

What the schedule of a tree is (`Tree.IsScheduled`). All of it follows from two facts on the level
of a needed node, which say that the one pass over the sorted nodes leaves no level as it was while
it still could grow:

* `Tree.level_lt`: the inputs of a node have smaller levels;
* `Tree.exists_level_eq`: unless a node has level 0, some input is one level below it.

By the second, every level up to that of the root is that of some node, so the wave of a node is its
level (`Tree.inWave_iff`). The levels of the nodes on a chain of inputs fall, so the longest chains
are those that fall by one at each step.
-/

namespace TraceRecovery

namespace Schedule

variable {inputs : NodeId → List NodeId} {count : Nat} {known known' : List Nat} {ids : List NodeId}

theorem lt_levelAbove {i : NodeId} (hi : i ∈ ids) : known.getD i 0 < levelAbove known ids := by
  have hm : known.getD i 0 + 1 ∈ ids.map fun i => known.getD i 0 + 1 := List.mem_map_of_mem hi
  unfold levelAbove
  cases hmax : (ids.map fun i => known.getD i 0 + 1).max? with
  | none => rw [List.max?_eq_none_iff.mp hmax] at hm; cases hm
  | some m =>
    have hle := (List.max?_eq_some_iff.mp hmax).2 _ hm
    rw [Option.getD_some]
    omega

theorem exists_of_levelAbove_eq {k : Nat} (h : levelAbove known ids = k + 1) :
    ∃ i ∈ ids, known.getD i 0 = k := by
  unfold levelAbove at h
  cases hmax : (ids.map fun i => known.getD i 0 + 1).max? with
  | none => rw [hmax, Option.getD_none] at h; omega
  | some m =>
    rw [hmax, Option.getD_some] at h
    obtain ⟨i, hi, he⟩ := List.mem_map.mp (List.max?_eq_some_iff.mp hmax).1
    exact ⟨i, hi, by omega⟩

theorem levelAbove_congr (h : ∀ i ∈ ids, known.getD i 0 = known'.getD i 0) :
    levelAbove known ids = levelAbove known' ids := by
  unfold levelAbove
  congr 2
  exact List.map_congr_left fun i hi => by rw [h i hi]

theorem levels_concat (done : List NodeId) (id : NodeId) :
    levels inputs count (done ++ [id]) =
      (levels inputs count done).set id (levelAbove (levels inputs count done) (inputs id)) := by
  simp [levels]

theorem length_levels (order : List NodeId) : (levels inputs count order).length = count := by
  induction order using List.reverseRecOn with
  | nil => simp [levels]
  | append_singleton done id ih => rw [levels_concat, List.length_set, ih]

/-- The level of a node is the least above those of its inputs. It is found when the node's turn
comes, and later turns change neither it nor the levels of the inputs. -/
theorem getD_levels {order : List NodeId} (hl : Legal inputs [] order)
    (hlt : ∀ id ∈ order, id < count) {id : NodeId} (hid : id ∈ order) :
    (levels inputs count order).getD id 0 =
      levelAbove (levels inputs count order) (inputs id) := by
  induction order using List.reverseRecOn generalizing id with
  | nil => cases hid
  | append_singleton done new ih =>
    obtain ⟨hdone, hnew, hin, -⟩ := legal_append.mp hl
    rw [List.nil_append] at hnew hin
    have hlen : new < (levels inputs count done).length := by
      rw [length_levels]
      exact hlt new (by simp)
    rw [levels_concat]
    set old := levels inputs count done with hold
    have hother : ∀ i ∈ done,
        (old.set new (levelAbove old (inputs new))).getD i 0 = old.getD i 0 := by
      intro i hi
      have hne : new ≠ i := fun e => hnew (e ▸ hi)
      simp [List.getD_eq_getElem?_getD, List.getElem?_set_ne hne]
    rcases List.mem_append.mp hid with hm | hm
    · rw [hother id hm, ih hdone (fun j hj => hlt j (List.mem_append_left _ hj)) hm]
      exact levelAbove_congr fun i hi => (hother i (hdone.inputs_mem hm i hi)).symm
    · obtain rfl := List.mem_singleton.mp hm
      have hself : (old.set id (levelAbove old (inputs id))).getD id 0 =
          levelAbove old (inputs id) := by
        simp [List.getD_eq_getElem?_getD, hlen]
      rw [hself]
      exact levelAbove_congr fun i hi => (hother i (hin i hi)).symm

/-- The numbers below a number, as a sorted set. -/
theorem elements_ofList_eq_range {l : List Nat} {n : Nat} (h : ∀ k, k ∈ l ↔ k < n) :
    (SortedSet.ofList l).elements = List.range n := by
  refine SortedSet.eq_of_mem_iff (SortedSet.ascending _) ?_ fun k => ?_
  · exact List.pairwise_lt_range.imp fun hab => Nat.compare_eq_lt.mpr hab
  · rw [← SortedSet.mem_def, SortedSet.mem_ofList, h, List.mem_range]

end Schedule

namespace Tree

variable (t : Tree)

/-- A node is the root of a tree, or one that the root reads directly or through others. -/
def Needed (id : NodeId) : Prop := Schedule.Needed t.inputs t.root id

theorem mem_order_iff {id : NodeId} : id ∈ t.order ↔ t.Needed id :=
  Schedule.mem_order_iff t.sorting t.root_lt

theorem legal_order : Schedule.Legal t.inputs [] t.order :=
  Schedule.legal_order t.sorting t.root_lt

theorem nodup_order : t.order.Nodup := by
  simpa using t.legal_order.nodup List.nodup_nil

variable {t} {id i : NodeId}

theorem Needed.input (h : t.Needed id) (hi : i ∈ t.inputs id) : t.Needed i := h.tail hi

theorem Needed.lt (h : t.Needed id) : id < t.size :=
  (t.sorting.mem_iff id).mp (Schedule.Needed.mem t.sorting.legal
    ((t.sorting.mem_iff t.root).mpr t.root_lt) h)

/-! ## Levels -/

variable (t) in
/-- The level that the schedule gives a node. -/
def level (id : NodeId) : Nat := (Schedule.levels t.inputs t.size t.order).getD id 0

theorem level_eq (h : t.Needed id) :
    t.level id = Schedule.levelAbove (Schedule.levels t.inputs t.size t.order) (t.inputs id) :=
  Schedule.getD_levels t.legal_order (fun _ hj => (t.mem_order_iff.mp hj).lt)
    (t.mem_order_iff.mpr h)

theorem level_lt (h : t.Needed id) (hi : i ∈ t.inputs id) : t.level i < t.level id := by
  rw [level_eq h]
  exact Schedule.lt_levelAbove hi

theorem exists_level_eq (h : t.Needed id) {k : Nat} (hk : t.level id = k + 1) :
    ∃ i ∈ t.inputs id, t.level i = k := by
  rw [level_eq h] at hk
  exact Schedule.exists_of_levelAbove_eq hk

theorem level_lt_root (h : t.Needed id) (hne : id ≠ t.root) : t.level id < t.level t.root := by
  induction h with
  | refl => exact absurd rfl hne
  | @tail j i hj hi ih =>
    have hlt := level_lt hj hi
    rcases eq_or_ne j t.root with rfl | hne
    · exact hlt
    · exact hlt.trans (ih hne)

/-- Every level up to that of a needed node is that of a needed node. -/
theorem exists_needed_level (h : t.Needed id) {k : Nat} (hk : k ≤ t.level id) :
    ∃ j, t.Needed j ∧ t.level j = k := by
  induction hn : t.level id - k generalizing id with
  | zero => exact ⟨id, h, by omega⟩
  | succ n ih =>
    obtain ⟨i, hi, hlevel⟩ := exists_level_eq h (k := t.level id - 1) (by omega)
    exact ih (h.input hi) (by omega) (by omega)

/-- Where inputs are placed below their readers, no chain of inputs is longer than the place of the
node that it begins at. -/
theorem length_le_place {place : NodeId → Nat}
    (hplace : ∀ id, t.Needed id → ∀ i ∈ t.inputs id, place i < place id) {c : List NodeId}
    (h : t.Needed id) (hc : List.IsChain (Schedule.Reads t.inputs) (id :: c)) :
    c.length ≤ place id := by
  induction c generalizing id with
  | nil => exact Nat.zero_le _
  | cons i c ih =>
    obtain ⟨hi, hc⟩ := List.isChain_cons_cons.mp hc
    have hle := ih (h.input hi) hc
    have hlt := hplace id h i hi
    rw [List.length_cons]
    omega

/-- A chain of inputs that falls by one level at each step is as long as the level it begins at. -/
theorem exists_chain (h : t.Needed id) :
    ∃ c, c.length = t.level id ∧ List.IsChain (Schedule.Reads t.inputs) (id :: c) := by
  induction hk : t.level id generalizing id with
  | zero => exact ⟨[], rfl, .singleton id⟩
  | succ k ih =>
    obtain ⟨i, hi, hlevel⟩ := exists_level_eq h hk
    obtain ⟨c, hlen, hc⟩ := ih (h.input hi) hlevel
    exact ⟨i :: c, by rw [List.length_cons, hlen], List.isChain_cons_cons.mpr ⟨hi, hc⟩⟩

/-! ## Waves -/

variable (t) in
/-- The needed nodes of a level, in ascending order. -/
def nodesAt (k : Nat) : List NodeId :=
  (SortedSet.ofList (t.order.filter fun id => t.level id == k)).elements

theorem mem_nodesAt {k : Nat} : id ∈ t.nodesAt k ↔ t.Needed id ∧ t.level id = k := by
  rw [nodesAt, ← SortedSet.mem_def, SortedSet.mem_ofList, List.mem_filter, mem_order_iff,
    beq_iff_eq]

theorem nodesAt_ascending (k : Nat) : (t.nodesAt k).Pairwise (· < ·) :=
  (SortedSet.ascending _).imp fun h => Nat.compare_eq_lt.mp h

variable (t) in
/-- The waves are the levels up to that of the root. None of them is empty, so none is left out. -/
theorem waves_eq : t.waves = (List.range (t.level t.root + 1)).map t.nodesAt := by
  have hlevels : (SortedSet.ofList (t.order.map t.level)).elements =
      List.range (t.level t.root + 1) := by
    refine Schedule.elements_ofList_eq_range fun k => ?_
    simp only [List.mem_map, mem_order_iff, Nat.lt_succ_iff]
    constructor
    · rintro ⟨id, hid, rfl⟩
      rcases eq_or_ne id t.root with rfl | hne
      · exact Nat.le_refl _
      · exact (level_lt_root hid hne).le
    · exact exists_needed_level .refl
  rw [← hlevels]
  rfl

/-- The waves depend only on which nodes are read by which. Levels are the lengths of the longest
chains of inputs, so neither heuristics nor the order of sorting matter. -/
theorem waves_congr {t' : Tree} (hinputs : t'.inputs = t.inputs) (hroot : t'.root = t.root) :
    t'.waves = t.waves := by
  have hneeded : ∀ id, t'.Needed id ↔ t.Needed id := fun id => by
    rw [Needed, Needed, hinputs, hroot]
  have hlevel : ∀ id, t.Needed id → t'.level id = t.level id := by
    intro id hid
    obtain ⟨c, hlen, hc⟩ := exists_chain hid
    obtain ⟨c', hlen', hc'⟩ := exists_chain ((hneeded id).mpr hid)
    refine Nat.le_antisymm ?_ ?_
    · rw [← hlen']
      exact length_le_place (fun _ hj _ hi => level_lt hj hi) hid (hinputs ▸ hc')
    · rw [← hlen]
      exact length_le_place (fun _ hj _ hi => level_lt hj hi) ((hneeded id).mpr hid) (hinputs ▸ hc)
  have hnodes : ∀ k, t'.nodesAt k = t.nodesAt k := fun k => by
    refine SortedSet.eq_of_mem_iff (SortedSet.ascending _) (SortedSet.ascending _) fun id => ?_
    show id ∈ t'.nodesAt k ↔ id ∈ t.nodesAt k
    rw [mem_nodesAt, mem_nodesAt, hneeded]
    exact and_congr_right fun hid => by rw [hlevel id hid]
  rw [waves_eq, waves_eq, hroot, hlevel t.root .refl]
  exact List.map_congr_left fun k _ => hnodes k

theorem getElem?_waves {k : Nat} {wave : List NodeId} :
    t.waves[k]? = some wave ↔ k ≤ t.level t.root ∧ wave = t.nodesAt k := by
  rw [waves_eq, List.getElem?_map, Option.map_eq_some_iff]
  simp only [List.getElem?_eq_some_iff, List.length_range, List.getElem_range, exists_prop]
  constructor
  · rintro ⟨_, ⟨hk, rfl⟩, rfl⟩
    exact ⟨by omega, rfl⟩
  · rintro ⟨hk, rfl⟩
    exact ⟨k, ⟨by omega, rfl⟩, rfl⟩

variable (t) in
/-- A node is in the wave with a number. -/
def InWave (k : Nat) (id : NodeId) : Prop := ∃ wave, t.waves[k]? = some wave ∧ id ∈ wave

theorem inWave_iff {k : Nat} : t.InWave k id ↔ t.Needed id ∧ t.level id = k := by
  simp only [InWave, getElem?_waves]
  constructor
  · rintro ⟨_, ⟨-, rfl⟩, hid⟩
    exact mem_nodesAt.mp hid
  · rintro ⟨hid, rfl⟩
    refine ⟨_, ⟨?_, rfl⟩, mem_nodesAt.mpr ⟨hid, rfl⟩⟩
    rcases eq_or_ne id t.root with rfl | hne
    · exact Nat.le_refl _
    · exact (level_lt_root hid hne).le

theorem exists_of_mem_waves {wave : List NodeId} (h : wave ∈ t.waves) :
    ∃ k ≤ t.level t.root, wave = t.nodesAt k := by
  obtain ⟨k, hk⟩ := List.mem_iff_getElem?.mp h
  exact ⟨k, getElem?_waves.mp hk⟩

theorem mem_flatten_waves : id ∈ t.waves.flatten ↔ t.Needed id := by
  rw [List.mem_flatten]
  constructor
  · rintro ⟨wave, hwave, hid⟩
    obtain ⟨k, -, rfl⟩ := exists_of_mem_waves hwave
    exact (mem_nodesAt.mp hid).1
  · intro hid
    obtain ⟨wave, hwave, hm⟩ := inWave_iff.mpr ⟨hid, rfl⟩
    exact ⟨wave, List.mem_of_getElem? hwave, hm⟩

variable (t) in
theorem nodup_flatten_waves : t.waves.flatten.Nodup := by
  refine List.nodup_flatten.mpr ⟨fun wave hwave => ?_, ?_⟩
  · obtain ⟨k, -, rfl⟩ := exists_of_mem_waves hwave
    exact (nodesAt_ascending k).imp Nat.ne_of_lt
  · rw [waves_eq, List.pairwise_map]
    refine List.pairwise_lt_range.imp fun {j k} hjk id hj hk => ?_
    have hj := (mem_nodesAt.mp hj).2
    have hk := (mem_nodesAt.mp hk).2
    omega

variable (t) in
theorem getLast?_waves : t.waves.getLast? = some [t.root] := by
  have hroot : t.nodesAt (t.level t.root) = [t.root] := by
    refine SortedSet.eq_of_mem_iff (SortedSet.ascending _) (List.pairwise_singleton _ _)
      fun id => ?_
    rw [List.mem_singleton]
    constructor
    · intro hid
      obtain ⟨hn, hlevel⟩ := mem_nodesAt.mp hid
      by_contra hne
      exact (level_lt_root hn hne).ne hlevel
    · rintro rfl
      exact mem_nodesAt.mpr ⟨.refl, rfl⟩
  rw [waves_eq, List.range_succ, List.map_append, List.map_singleton, hroot,
    List.getLast?_concat]

variable (t) in
/-- A correct schedule that is as short as possible. -/
structure IsScheduled : Prop where
  /-- The waves hold each needed node once, and no other node. -/
  mem_iff : ∀ id, id ∈ t.waves.flatten ↔ t.Needed id
  nodup : t.waves.flatten.Nodup
  nonempty : ∀ wave ∈ t.waves, wave ≠ []
  ascending : ∀ wave ∈ t.waves, wave.Pairwise (· < ·)
  /-- The inputs of a node are in earlier waves. -/
  input_earlier : ∀ k id, t.InWave k id → ∀ i ∈ t.inputs id, ∃ j < k, t.InWave j i
  /-- Some input of a node is in the wave just before. -/
  input_just_before : ∀ k id, t.InWave (k + 1) id → ∃ i ∈ t.inputs id, t.InWave k i
  /-- The number of a node's wave is the length of its longest chain of inputs. -/
  longest_chain : ∀ k id, t.InWave k id →
    IsGreatest {n | ∃ c : List NodeId,
      c.length = n ∧ List.IsChain (Schedule.Reads t.inputs) (id :: c)} k
  /-- In no other assignment of waves with inputs in earlier waves is a node placed earlier. -/
  earliest : ∀ place : NodeId → Nat,
    (∀ id, t.Needed id → ∀ i ∈ t.inputs id, place i < place id) →
      ∀ k id, t.InWave k id → k ≤ place id
  last_wave : t.waves.getLast? = some [t.root]
  /-- The order takes the nodes of the waves, each after its inputs. -/
  order_perm : t.order.Perm t.waves.flatten
  order_inputs_before : ∀ before id after, t.order = before ++ id :: after →
    ∀ i ∈ t.inputs id, i ∈ before

/-- Every tree is scheduled correctly and in as few waves as possible, in whatever way its nodes are
sorted. -/
theorem isScheduled (t : Tree) : t.IsScheduled where
  mem_iff _ := mem_flatten_waves
  nodup := t.nodup_flatten_waves
  nonempty wave hwave := by
    obtain ⟨k, hk, rfl⟩ := exists_of_mem_waves hwave
    obtain ⟨id, hid, hlevel⟩ := exists_needed_level (t := t) .refl hk
    exact List.ne_nil_of_mem (mem_nodesAt.mpr ⟨hid, hlevel⟩)
  ascending wave hwave := by
    obtain ⟨k, -, rfl⟩ := exists_of_mem_waves hwave
    exact nodesAt_ascending k
  input_earlier k id h i hi := by
    obtain ⟨hid, rfl⟩ := inWave_iff.mp h
    exact ⟨t.level i, level_lt hid hi, inWave_iff.mpr ⟨hid.input hi, rfl⟩⟩
  input_just_before k id h := by
    obtain ⟨hid, hlevel⟩ := inWave_iff.mp h
    obtain ⟨i, hi, hk⟩ := exists_level_eq hid hlevel
    exact ⟨i, hi, inWave_iff.mpr ⟨hid.input hi, hk⟩⟩
  longest_chain k id h := by
    obtain ⟨hid, rfl⟩ := inWave_iff.mp h
    refine ⟨exists_chain hid, ?_⟩
    rintro _ ⟨c, rfl, hc⟩
    exact length_le_place (fun _ hj _ hi => level_lt hj hi) hid hc
  earliest place hplace k id h := by
    obtain ⟨hid, rfl⟩ := inWave_iff.mp h
    obtain ⟨c, hlen, hc⟩ := exists_chain hid
    exact hlen ▸ length_le_place hplace hid hc
  last_wave := t.getLast?_waves
  order_perm := by
    refine (List.perm_ext_iff_of_nodup t.nodup_order t.nodup_flatten_waves).mpr fun id => ?_
    rw [mem_order_iff, mem_flatten_waves]
  order_inputs_before before id after h :=
    Schedule.Legal.inputs_before (h ▸ t.legal_order)

/-- A node that reads another both directly and through a third is two waves behind it. -/
example :
    let inputs := fun id => if id = 2 then [0, 0, 1] else if id = 3 then [2, 0] else []
    Schedule.waves (Schedule.levels inputs 4 [1, 0, 2, 3]) [1, 0, 2, 3] = [[0, 1], [2], [3]] := by
  decide

end Tree

end TraceRecovery
