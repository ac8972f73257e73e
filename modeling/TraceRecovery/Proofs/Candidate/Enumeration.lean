import TraceRecovery.Candidate.Places
import TraceRecovery.Proofs.Heuristic.Linked

/-!
# Places of candidates

The enumeration of two models lists each pair of an item and a unit once, and the place of a pair
follows from those of its ends: behind the pairs of the items before it come those of its own item
(`CandidateSpace.getElem?_candidates_eq_some_iff`). Its index knows exactly the places of the pairs
(`Enumeration.places_ofModels`), since no pair is listed twice. So the index tells from each other
two pairs with the same ids, although it looks both up in one slot.
-/

namespace TraceRecovery

/-- Where every element of a list stands for a block of the same length, a place in all the blocks
one after another is one within the block of some element. -/
theorem List.getElem?_flatMap_of_length {α β : Type} {f : α → List β} {m : Nat}
    (hf : ∀ a, (f a).length = m) (l : List α) (i : Nat) {j : Nat} (hj : j < m) :
    (l.flatMap f)[i * m + j]? = l[i]?.bind fun a => (f a)[j]? := by
  induction l generalizing i with
  | nil => simp
  | cons a l ih =>
    rw [List.flatMap_cons]
    cases i with
    | zero =>
      rw [Nat.zero_mul, Nat.zero_add, List.getElem?_append_left (hf a ▸ hj)]
      rfl
    | succ i =>
      have hplace : (i + 1) * m + j = (f a).length + (i * m + j) := by
        rw [hf, Nat.succ_mul]
        omega
      rw [hplace, List.getElem?_append_right (Nat.le_add_right _ _), Nat.add_sub_cancel_left, ih,
        List.getElem?_cons_succ]

namespace CandidateSpace

variable {s : CandidateSpace} {t : Candidate} {i j k : Nat} {item : Item} {unit : CodeUnit}

theorem getElem?_candidates (hi : s.architecture.items[i]? = some item)
    (hj : s.code.units[j]? = some unit) :
    s.candidates[i * s.code.size + j]? = some ⟨item, unit⟩ := by
  have hlt : j < s.code.size := (List.getElem?_eq_some_iff.mp hj).1
  have hlength : ∀ i : Item,
      (s.code.units.map fun u => (⟨i, u⟩ : Candidate)).length = s.code.size :=
    fun _ => List.length_map _
  rw [candidates, List.getElem?_flatMap_of_length hlength _ _ hlt, hi, Option.bind_some,
    List.getElem?_map, hj, Option.map_some]

theorem getElem?_candidates_inj (hi : s.candidates[i]? = some t) (hj : s.candidates[j]? = some t) :
    i = j :=
  (List.getElem?_inj (List.getElem?_eq_some_iff.mp hi).1 s.nodup_candidates).mp (hi.trans hj.symm)

/-- The place of a pair is given by those of its item and its unit, and gives them. -/
theorem getElem?_candidates_eq_some_iff : s.candidates[k]? = some t ↔
    ∃ i j, s.architecture.items[i]? = some t.item ∧ s.code.units[j]? = some t.unit ∧
      k = i * s.code.size + j := by
  constructor
  · intro hk
    obtain ⟨hitem, hunit⟩ := mem_candidates.mp (List.mem_of_getElem? hk)
    obtain ⟨i, hi⟩ := List.mem_iff_getElem?.mp hitem
    obtain ⟨j, hj⟩ := List.mem_iff_getElem?.mp hunit
    exact ⟨i, j, hi, hj, getElem?_candidates_inj hk (getElem?_candidates hi hj)⟩
  · rintro ⟨i, j, hi, hj, rfl⟩
    exact getElem?_candidates hi hj

theorem position?_eq_some_iff : s.position? t = some k ↔ s.candidates[k]? = some t := by
  rw [position?, List.idxOf?_eq_some_iff, List.getElem?_eq_some_iff]
  constructor
  · exact fun ⟨hk, ht, _⟩ => ⟨hk, ht⟩
  · rintro ⟨hk, ht⟩
    refine ⟨hk, ht, fun j hj hjt => ?_⟩
    have heq : j = k := getElem?_candidates_inj
      (List.getElem?_eq_some_iff.mpr ⟨Nat.lt_trans hj hk, hjt⟩)
      (List.getElem?_eq_some_iff.mpr ⟨hk, ht⟩)
    exact Nat.ne_of_lt hj heq

theorem contains_eq_true_iff : s.contains t = true ↔ t ∈ s.candidates :=
  List.contains_iff_mem

/-- Two candidates with the same ids are equal in all other fields too. -/
theorem eq_of_ids {t' : Candidate} (ht : t ∈ s.candidates) (ht' : t' ∈ s.candidates)
    (hitem : t'.item.id = t.item.id) (hunit : t'.unit.id = t.unit.id) : t' = t := by
  obtain ⟨hi, hu⟩ := mem_candidates.mp ht
  obtain ⟨hi', hu'⟩ := mem_candidates.mp ht'
  calc
    t' = ⟨t'.item, t'.unit⟩ := rfl
    _ = ⟨t.item, t.unit⟩ := by
      rw [s.architecture.eq_of_id_eq hi' hi hitem, s.code.eq_of_id_eq hu' hu hunit]

end CandidateSpace

namespace Enumeration

variable {a : Architecture} {c : Code} {t : Candidate} {k : Nat}

/-- Item by item, and within an item unit by unit. -/
theorem toList_pairs (items : List Item) (units : List CodeUnit) :
    (pairs items units).toList = items.flatMap fun i => units.map fun u => ⟨i, u⟩ := by
  have hunits : ∀ (i : Item) (units : List CodeUnit) (cs : Array Candidate),
      (units.foldl (fun cs u => cs.push ⟨i, u⟩) cs).toList =
        cs.toList ++ units.map fun u => ⟨i, u⟩ := by
    intro i units
    simp
  have hitems : ∀ (items : List Item) (cs : Array Candidate),
      (items.foldl (fun cs i => units.foldl (fun cs u => cs.push ⟨i, u⟩) cs) cs).toList =
        cs.toList ++ items.flatMap fun i => units.map fun u => ⟨i, u⟩ := by
    intro items
    induction items with
    | nil => simp
    | cons i items ih =>
      intro cs
      rw [List.foldl_cons, ih, hunits, List.flatMap_cons, List.append_assoc]
  exact hitems items #[]

theorem toList_candidates (a : Architecture) (c : Code) :
    (ofModels a c).candidates.toList = (CandidateSpace.mk a c).candidates :=
  toList_pairs a.items c.units

theorem getElem?_candidates :
    (ofModels a c).candidates[k]? = (CandidateSpace.mk a c).candidates[k]? := by
  rw [← toList_candidates, Array.getElem?_toList]

/-- The index has the place of every pair, and no other. -/
theorem places_ofModels : (ofModels a c).places[t]? = some k ↔
    (CandidateSpace.mk a c).candidates[k]? = some t := by
  have hplaces : (ofModels a c).places =
      .ofList (CandidateSpace.mk a c).candidates.zipIdx := by
    rw [← toList_candidates]
    rfl
  have hdistinct : (CandidateSpace.mk a c).candidates.zipIdx.Pairwise
      fun x y => (x.1 == y.1) = false := by
    have hkeys : ((CandidateSpace.mk a c).candidates.zipIdx.map Prod.fst).Nodup := by
      rw [List.zipIdx_map_fst]
      exact CandidateSpace.nodup_candidates _
    exact (List.pairwise_map.mp hkeys).imp fun h => beq_false_of_ne h
  have hlookup : ∀ {k}, (CandidateSpace.mk a c).candidates[k]? = some t →
      (ofModels a c).places[t]? = some k := by
    intro k hk
    rw [hplaces]
    exact Std.HashMap.getElem?_ofList_of_mem (beq_self_eq_true t) hdistinct
      (List.mk_mem_zipIdx_iff_getElem?.mpr hk)
  refine ⟨fun h => ?_, hlookup⟩
  have hmem : t ∈ (CandidateSpace.mk a c).candidates := by
    have hin : t ∈ (ofModels a c).places := by simp [Std.HashMap.mem_iff_isSome_getElem?, h]
    rw [hplaces, Std.HashMap.mem_ofList, List.zipIdx_map_fst] at hin
    exact List.contains_iff_mem.mp hin
  obtain ⟨k', hk'⟩ := List.mem_iff_getElem?.mp hmem
  rw [hlookup hk'] at h
  exact Option.some.inj h ▸ hk'

theorem position?_eq_some_iff :
    (ofModels a c).position? t = some k ↔ (ofModels a c).candidates[k]? = some t := by
  rw [getElem?_candidates]
  exact places_ofModels

theorem contains_eq_true_iff :
    (ofModels a c).contains t = true ↔ t ∈ (CandidateSpace.mk a c).candidates := by
  rw [contains, ← Std.HashMap.mem_iff_contains, Std.HashMap.mem_iff_isSome_getElem?,
    Option.isSome_iff_exists]
  simp only [places_ofModels]
  exact List.mem_iff_getElem?.symm

/-- The enumeration of two models lists all pairs of an item and a unit, each once and the one of an
item and a unit in the place that follows from theirs. It contains exactly these pairs, however they
have been made, and knows the place of each. A pair that has the ids of one of them but differs from
it in any field is neither contained nor has a place. In all this the enumeration agrees with the
list of candidates. -/
theorem enumerates_pairs (a : Architecture) (c : Code) :
    (ofModels a c).size = a.size * c.size ∧
      (ofModels a c).candidates.toList.Nodup ∧
      (∀ i j item unit, a.items[i]? = some item → c.units[j]? = some unit →
        (ofModels a c).candidates[i * c.size + j]? = some ⟨item, unit⟩) ∧
      (∀ t, (ofModels a c).contains t = true ↔ t.item ∈ a.items ∧ t.unit ∈ c.units) ∧
      (∀ t k, (ofModels a c).position? t = some k ↔ (ofModels a c).candidates[k]? = some t) ∧
      (∀ t k, (ofModels a c).position? t = some k ↔ ∃ i j, a.items[i]? = some t.item ∧
        c.units[j]? = some t.unit ∧ k = i * c.size + j) ∧
      (∀ t ∈ (ofModels a c).candidates, ∀ t' : Candidate, t'.item.id = t.item.id →
        t'.unit.id = t.unit.id → t' ≠ t →
        (ofModels a c).contains t' = false ∧ (ofModels a c).position? t' = none) ∧
      (ofModels a c).candidates.toList = (CandidateSpace.mk a c).candidates ∧
      ∀ t, (ofModels a c).contains t = (CandidateSpace.mk a c).contains t ∧
        (ofModels a c).position? t = (CandidateSpace.mk a c).position? t := by
  have hcontains : ∀ t, (ofModels a c).contains t = true ↔ t.item ∈ a.items ∧ t.unit ∈ c.units :=
    fun t => contains_eq_true_iff.trans CandidateSpace.mem_candidates
  have hplace : ∀ t k, (ofModels a c).position? t = some k ↔
      (CandidateSpace.mk a c).candidates[k]? = some t := fun t k => places_ofModels
  refine ⟨?_, ?_, fun i j item unit hi hj => ?_, hcontains, fun t k => position?_eq_some_iff,
    fun t k => ?_, fun t ht t' hitem hunit hne => ?_, toList_candidates a c,
    fun t => ⟨?_, ?_⟩⟩
  · rw [size, ← Array.length_toList, toList_candidates]
    exact CandidateSpace.size_eq _
  · rw [toList_candidates]
    exact CandidateSpace.nodup_candidates _
  · rw [getElem?_candidates]
    exact CandidateSpace.getElem?_candidates hi hj
  · rw [hplace]
    exact CandidateSpace.getElem?_candidates_eq_some_iff
  · have hout : t' ∉ (CandidateSpace.mk a c).candidates := by
      rw [← Array.mem_toList_iff, toList_candidates] at ht
      exact fun ht' => hne (CandidateSpace.eq_of_ids ht ht' hitem hunit)
    constructor
    · rw [Bool.eq_false_iff]
      exact mt contains_eq_true_iff.mp hout
    · rw [Option.eq_none_iff_forall_not_mem]
      exact fun k hk => hout (List.mem_of_getElem? ((hplace t' k).mp hk))
  · rw [Bool.eq_iff_iff, contains_eq_true_iff, CandidateSpace.contains_eq_true_iff]
  · ext k
    rw [hplace, CandidateSpace.position?_eq_some_iff]

end Enumeration

end TraceRecovery
