import TraceRecovery.Aggregation.Document
import TraceRecovery.Proofs.Confidence.Children

/-!
# Confidences in order

Confidences come from numbers, from documents and from aggregations. What is no number is refused by
all of these (`Aggregation.combine_eq_ok_iff`), although it would count as equal to whatever it is
compared with (`Confidence.compareValues_of_not_isNumber`). So any two confidences can be compared,
and a list of them has exactly one stable sort (`Confidence.isStableSort_iff`): an ascending list is
known by its elements of each rank (`Confidence.eq_of_filter_eq`), and a confidence is inserted
behind those of its rank (`Confidence.filter_insert`).
-/

namespace TraceRecovery

/-! ## Where confidences come from -/

namespace Aggregation

variable {a : Aggregation} {cs : List Confidence} {c : Confidence} {v : Float}

/-- The number that an aggregation finds for some children, before it is brought into the range of
confidences. -/
def found? : Aggregation → List Confidence → Option Float
  | average, cs =>
    if (defined cs).isEmpty then none
    else some ((defined cs).foldl (· + ·) (0 : Float) / Float.ofNat (defined cs).length)
  | min, cs => extreme (fun x kept => x < kept) (defined cs)
  | max, cs => extreme (fun x kept => kept < x) (defined cs)
  | weighted ws, cs =>
    if totalWeight cs ws == 0 then none else some (weightedSum cs ws / totalWeight cs ws)

theorem clamp_eq_self (h : 0 ≤ v ∧ v ≤ 1) : clamp v = v := by
  have hzero : Double.IsNumber 0 := Double.isNumber_of_isFinite rfl
  have hone : Double.IsNumber 1 := Double.isNumber_of_isFinite rfl
  have hv : Double.IsNumber v := (Double.isNumber_of_le h.1).2
  simp only [clamp, if_neg ((Double.not_lt_iff hv hzero).mpr h.1),
    if_neg ((Double.not_lt_iff hone hv).mpr h.2)]

theorem clamp_of_extreme {beats : Float → Float → Bool} :
    (extreme beats (defined cs)).map clamp = extreme beats (defined cs) := by
  cases he : extreme beats (defined cs) with
  | none => rfl
  | some v =>
    obtain ⟨h, -⟩ := mem_defined.mp (mem_of_extreme he)
    rw [Option.map_some, clamp_eq_self h]

/-- Weights are the only thing that is checked before. -/
theorem combine_eq (h : ∀ ws, a = weighted ws → a.validate cs.length = .ok ()) :
    a.combine cs = confidence ((a.found? cs).map clamp) := by
  cases a with
  | average =>
    rw [combine, found?]
    split <;> rfl
  | min => rw [found?, clamp_of_extreme, combine]
  | max => rw [found?, clamp_of_extreme, combine]
  | weighted ws =>
    rw [combine_weighted_eq (h ws rfl), found?]
    split <;> rfl

theorem confidence_eq_ok_iff {o : Option Float} :
    confidence o = .ok c ↔ c.value? = o ∧ ∀ v ∈ o, 0 ≤ v ∧ v ≤ 1 := by
  cases o with
  | none =>
    cases c with
    | unset => simp [confidence, Confidence.value?]
    | of v hv => simp [confidence, Confidence.value?]
  | some v =>
    rw [confidence, Confidence.ofValue_eq_ok_iff]
    constructor
    · rintro ⟨hv, rfl⟩
      exact ⟨rfl, fun _ h => Option.some.inj h ▸ hv⟩
    · rintro ⟨hc, hv⟩
      cases c with
      | unset => cases hc
      | of w hw => exact ⟨hv v rfl, by cases hc; rfl⟩

/-- An aggregation makes a confidence exactly if its weights can be used and what it finds is a
number, if it finds anything. That number is brought into the range of confidences. -/
theorem combine_eq_ok_iff : a.combine cs = .ok c ↔
    (∀ ws, a = weighted ws → a.validate cs.length = .ok ()) ∧
      (∀ v ∈ a.found? cs, Double.IsNumber v) ∧ c.value? = (a.found? cs).map clamp := by
  by_cases hvalid : ∀ ws, a = weighted ws → a.validate cs.length = .ok ()
  · have hrange : (∀ v ∈ (a.found? cs).map clamp, 0 ≤ v ∧ v ≤ 1) ↔
        ∀ v ∈ a.found? cs, Double.IsNumber v := by
      cases a.found? cs with
      | none => simp
      | some v => simp [clamp_mem_iff]
    rw [combine_eq hvalid, confidence_eq_ok_iff, hrange, and_iff_right hvalid, and_comm]
  · refine iff_of_false (fun hc => hvalid ?_) fun h => hvalid h.1
    rintro ws rfl
    obtain ⟨⟨⟩, hv, -⟩ := Fallible.bind_eq_ok_iff.mp hc
    exact hv

end Aggregation

namespace Confidence

variable {a b c d : Confidence} {cs ds : List Confidence} {v w : Float}

theorem ofValue_eq_ok_iff_value? : ofValue v = .ok c ↔ (0 ≤ v ∧ v ≤ 1) ∧ c.value? = some v := by
  have h := Aggregation.confidence_eq_ok_iff (o := some v) (c := c)
  rw [and_comm]
  simpa [Aggregation.confidence] using h

/-- What a value describes is abstention if it is null, and else the number that it describes. -/
theorem ofJson?_eq_some_iff {j : Json} : ofJson? j = some c ↔
    j = .null ∧ c = unset ∨
      j ≠ .null ∧ ∃ v, Json.float? j = some v ∧ (0 ≤ v ∧ v ≤ 1) ∧ c.value? = some v := by
  unfold ofJson?
  split
  · simp [eq_comm]
  · rename_i hnull
    have htoOption (x : Except TraceError Confidence) : x.toOption = some c ↔ x = .ok c := by
      cases x <;> simp [Except.toOption]
    rw [or_iff_right fun h => hnull h.1, and_iff_right hnull, Option.bind_eq_bind,
      Option.bind_eq_some_iff]
    simp only [← ofValue_eq_ok_iff_value?, htoOption]

/-! ## Comparison -/

/-- The comparison of two values, either of which may be missing. Where neither is below the other
they count as equal. -/
def compareValues : Option Float → Option Float → Ordering
  | none, none => .eq
  | none, some _ => .lt
  | some _, none => .gt
  | some v, some w => if v < w then .lt else if w < v then .gt else .eq

theorem compare_eq_compareValues (a b : Confidence) :
    compare a b = compareValues a.value? b.value? := by
  cases a <;> cases b <;> rfl

/-- What is no number would count as equal to every value, below and above it. -/
theorem compareValues_of_not_isNumber (h : ¬ Double.IsNumber v) :
    compareValues (some v) (some w) = .eq ∧ compareValues (some w) (some v) = .eq := by
  have hvw : ¬ v < w := fun hlt => h (Double.lt_iff.mp hlt).1
  have hwv : ¬ w < v := fun hlt => h (Double.lt_iff.mp hlt).2.1
  simp only [compareValues, if_neg hvw, if_neg hwv, and_self]

theorem compare_eq_cmp (a b : Confidence) : compare a b = cmp a.place b.place := by
  rcases lt_trichotomy a.place b.place with h | h | h
  · rw [compare_eq_lt_iff.mpr h, (cmp_eq_lt_iff _ _).mpr h]
  · rw [(cmp_eq_eq_iff _ _).mpr h]
    cases hc : compare a b with
    | lt => exact absurd h (compare_eq_lt_iff.mp hc).ne
    | gt => exact absurd h (compare_eq_gt_iff.mp hc).ne'
    | eq => rfl
  · rw [compare_eq_gt_iff.mpr h, (cmp_eq_gt_iff _ _).mpr h]

theorem beq_iff_compare_eq : (a == b) = true ↔ compare a b = .eq := by
  show (compare a b == .eq) = true ↔ _
  exact beq_iff_eq

theorem beq_iff : (a == b) = true ↔ a.place = b.place := by
  rw [beq_iff_compare_eq, compare_eq_cmp, cmp_eq_eq_iff]

/-- Values are compared as the numbers that they are. -/
theorem compare_of_of {hv : 0 ≤ v ∧ v ≤ 1} {hw : 0 ≤ w ∧ w ≤ 1} :
    compare (of v hv) (of w hw) = cmp (Double.value v) (Double.value w) := by
  have hv' := Double.isAmount_of_mem hv
  have hw' := Double.isAmount_of_mem hw
  simp only [compare, cmp, cmpUsing, Double.value_lt_iff hv' hw', Double.value_lt_iff hw' hv']

theorem compare_swap (a b : Confidence) : compare b a = (compare a b).swap := by
  rw [compare_eq_cmp, compare_eq_cmp, cmp_swap]

theorem beq_of_le_of_le (hab : a ≤ b) (hba : b ≤ a) : (a == b) = true :=
  beq_iff.mpr (le_antisymm (le_iff.mp hab) (le_iff.mp hba))

theorem le_or_le (a b : Confidence) : a ≤ b ∨ b ≤ a := by
  rw [le_iff, le_iff]
  exact le_total _ _

/-! ## Sorting -/

/-- A list has the elements of another in ascending order, and equal ones in the order that they
have there. -/
structure IsStableSort (cs ds : List Confidence) : Prop where
  ascending : ds.Pairwise (· ≤ ·)
  stable : ∀ c, ds.filter (· == c) = cs.filter (· == c)

theorem perm_insert (c : Confidence) (cs : List Confidence) : (insert c cs).Perm (c :: cs) := by
  induction cs with
  | nil => exact .refl _
  | cons d cs ih =>
    rw [insert]
    split
    · exact .refl _
    · exact (ih.cons d).trans (.swap c d cs)

theorem pairwise_insert (h : cs.Pairwise (· ≤ ·)) : (insert c cs).Pairwise (· ≤ ·) := by
  induction cs with
  | nil => exact List.pairwise_singleton _ c
  | cons d cs ih =>
    obtain ⟨hd, hcs⟩ := List.pairwise_cons.mp h
    rw [insert]
    split
    · rename_i hlt
      refine List.pairwise_cons.mpr ⟨fun e he => ?_, h⟩
      rcases List.mem_cons.mp he with rfl | he
      · exact le_of_lt hlt
      · exact (le_of_lt hlt).trans (hd e he)
    · rename_i hlt
      refine List.pairwise_cons.mpr ⟨fun e he => ?_, ih hcs⟩
      rcases List.mem_cons.mp ((perm_insert c cs).mem_iff.mp he) with rfl | he
      · exact le_of_not_lt hlt
      · exact hd e he

/-- A confidence is inserted behind those that equal it. -/
theorem filter_insert (h : cs.Pairwise (· ≤ ·)) :
    (insert c cs).filter (· == d) = (cs ++ [c]).filter (· == d) := by
  induction cs with
  | nil => rfl
  | cons e cs ih =>
    obtain ⟨he, hcs⟩ := List.pairwise_cons.mp h
    rw [insert]
    split
    · rename_i hlt
      rw [List.filter_cons, List.filter_append, List.filter_singleton]
      cases hc : c == d with
      | false => simp
      | true =>
        -- What equals the inserted confidence is not among those before which it is put.
        have hnone : (e :: cs).filter (· == d) = [] := List.filter_eq_nil_iff.mpr fun f hf hfd => by
          have hle : e ≤ f := by
            rcases List.mem_cons.mp hf with rfl | hf
            · exact le_rfl
            · exact he f hf
          have hcf : c.place < f.place := lt_iff.mp (lt_of_lt_of_le hlt hle)
          exact hcf.ne ((beq_iff.mp hc).trans (beq_iff.mp hfd).symm)
        rw [hnone]
        rfl
    · rw [List.cons_append, List.filter_cons, List.filter_cons, ih hcs]

theorem sort_append_singleton (cs : List Confidence) (c : Confidence) :
    sort (cs ++ [c]) = insert c (sort cs) :=
  List.foldl_append

theorem isStableSort_sort (cs : List Confidence) : IsStableSort cs (sort cs) := by
  induction cs using List.reverseRecOn with
  | nil => exact ⟨.nil, fun _ => rfl⟩
  | append_singleton cs c ih =>
    rw [sort_append_singleton]
    refine ⟨pairwise_insert ih.ascending, fun d => ?_⟩
    rw [filter_insert ih.ascending, List.filter_append, List.filter_append, ih.stable]

theorem perm_sort (cs : List Confidence) : (sort cs).Perm cs := by
  induction cs using List.reverseRecOn with
  | nil => exact .refl _
  | append_singleton cs c ih =>
    rw [sort_append_singleton]
    exact (perm_insert c _).trans ((ih.cons c).trans (List.perm_append_singleton c cs).symm)

theorem mem_of_filter_eq (h : ∀ c, cs.filter (· == c) = ds.filter (· == c)) (hc : c ∈ cs) :
    c ∈ ds := by
  have hmem : c ∈ cs.filter (· == c) := List.mem_filter.mpr ⟨hc, beq_iff.mpr rfl⟩
  rw [h] at hmem
  exact List.mem_of_mem_filter hmem

/-- Ascending lists are equal if they have the same elements of each rank in the same order. -/
theorem eq_of_filter_eq (h : cs.Pairwise (· ≤ ·)) (h' : ds.Pairwise (· ≤ ·))
    (hfilter : ∀ c, cs.filter (· == c) = ds.filter (· == c)) : cs = ds := by
  induction cs generalizing ds with
  | nil =>
    exact (List.eq_nil_iff_forall_not_mem.mpr fun c hc =>
      List.not_mem_nil (mem_of_filter_eq (fun c => (hfilter c).symm) hc)).symm
  | cons a cs ih =>
    cases ds with
    | nil => exact absurd (mem_of_filter_eq hfilter List.mem_cons_self) List.not_mem_nil
    | cons b ds =>
      obtain ⟨ha, hcs⟩ := List.pairwise_cons.mp h
      obtain ⟨hb, hds⟩ := List.pairwise_cons.mp h'
      have hab : a ≤ b := by
        rcases List.mem_cons.mp (mem_of_filter_eq (fun c => (hfilter c).symm)
          (List.mem_cons_self (a := b))) with rfl | hmem
        · exact le_rfl
        · exact ha b hmem
      have hba : b ≤ a := by
        rcases List.mem_cons.mp (mem_of_filter_eq hfilter (List.mem_cons_self (a := a))) with
          rfl | hmem
        · exact le_rfl
        · exact hb a hmem
      -- The heads are equally ranked, so each is the first of that rank in its list.
      have heads : a = b := by
        have hrank := hfilter b
        rw [List.filter_cons, if_pos (beq_of_le_of_le hab hba), List.filter_cons,
          if_pos (beq_iff.mpr rfl)] at hrank
        exact (List.cons.inj hrank).1
      subst heads
      refine congrArg _ (ih hcs hds fun c => ?_)
      have hrank := hfilter c
      rw [List.filter_cons, List.filter_cons] at hrank
      split at hrank
      · exact (List.cons.inj hrank).2
      · exact hrank

theorem isStableSort_iff : IsStableSort cs ds ↔ ds = sort cs := by
  constructor
  · intro h
    have hsort := isStableSort_sort cs
    exact eq_of_filter_eq h.ascending hsort.ascending fun c =>
      (h.stable c).trans (hsort.stable c).symm
  · rintro rfl
    exact isStableSort_sort cs

/-- Abstentions come first in an ascending list. -/
theorem eq_replicate_append (h : cs.Pairwise (· ≤ ·)) :
    ∃ ds, cs = List.replicate (cs.countP fun c => !c.isDefined) unset ++ ds ∧
      ∀ c ∈ ds, c.isDefined = true := by
  induction cs with
  | nil => exact ⟨[], rfl, by simp⟩
  | cons c cs ih =>
    obtain ⟨hc, hcs⟩ := List.pairwise_cons.mp h
    cases c with
    | unset =>
      obtain ⟨ds, hds, hdefined⟩ := ih hcs
      refine ⟨ds, ?_, hdefined⟩
      rw [List.countP_cons_of_pos rfl, List.replicate_succ, List.cons_append, ← hds]
    | of v hv =>
      have hdefined : ∀ d ∈ of v hv :: cs, d.isDefined = true := by
        intro d hd
        rcases List.mem_cons.mp hd with rfl | hd
        · rfl
        · exact isDefined_of_le (hc d hd) rfl
      refine ⟨of v hv :: cs, ?_, hdefined⟩
      rw [List.countP_eq_zero.mpr fun d hd => by simp [hdefined d hd]]
      rfl

/-! ## Wherever they come from -/

/-- What confidences are, and when each way to make one succeeds, and with which. -/
structure MadeOfNumbers : Prop where
  unset_or_number : ∀ c : Confidence,
    c = unset ∨ ∃ v, c.value? = some v ∧ Double.IsNumber v ∧ 0 ≤ v ∧ v ≤ 1
  ofValue_iff : ∀ v c, ofValue v = .ok c ↔ (0 ≤ v ∧ v ≤ 1) ∧ c.value? = some v
  /-- A document describes abstention by null, and else a number in range. -/
  ofJson?_iff : ∀ j c, ofJson? j = some c ↔ j = .null ∧ c = unset ∨
    j ≠ .null ∧ ∃ v, Json.float? j = some v ∧ (0 ≤ v ∧ v ≤ 1) ∧ c.value? = some v
  /-- What an aggregation finds must be a number, and is brought into the range. -/
  combine_iff : ∀ (a : Aggregation) cs c, a.combine cs = .ok c ↔
    (∀ ws, a = .weighted ws → a.validate cs.length = .ok ()) ∧
      (∀ v ∈ a.found? cs, Double.IsNumber v) ∧ c.value? = (a.found? cs).map Aggregation.clamp

/-- Confidences are compared by their values, and that is a total order of them up to equality. -/
structure OrderedByValues : Prop where
  compare_eq : ∀ a b, compare a b = compareValues a.value? b.value?
  refl : ∀ a, compare a a = .eq
  swap : ∀ a b, compare b a = (compare a b).swap
  beq_iff : ∀ a b : Confidence, (a == b) = true ↔ compare a b = .eq
  antisymm : ∀ a b : Confidence, a ≤ b → b ≤ a → (a == b) = true
  trans : ∀ a b c : Confidence, a ≤ b → b ≤ c → a ≤ c
  total : ∀ a b : Confidence, a ≤ b ∨ b ≤ a
  /-- Abstention is below every value. -/
  unset_lt : ∀ c : Confidence, c.isDefined = true → unset < c
  /-- Values are compared as the numbers that they are. -/
  compare_values : ∀ v w hv hw,
    compare (of v hv) (of w hw) = cmp (Double.value v) (Double.value w)
  zeros_beq : ∀ h h', (of 0 h == of (-0) h') = true

/-- What comes of putting some confidences in order, and of taking the best of them. -/
structure SortedStably (cs : List Confidence) : Prop where
  /-- There is exactly one stable sort. -/
  isStableSort_iff : ∀ ds, IsStableSort cs ds ↔ ds = sort cs
  perm : (sort cs).Perm cs
  ascending : (sort cs).Pairwise (· ≤ ·)
  abstentions_first : ∃ ds, sort cs =
    List.replicate (cs.countP fun c => !c.isDefined) unset ++ ds ∧ ∀ c ∈ ds, c.isDefined = true
  /-- The best of some confidences is a greatest one, if abstention is counted among them. -/
  isGreatest_unset : IsGreatest {c | c ∈ unset :: cs} (bestOf cs)
  isGreatest : cs ≠ [] → IsGreatest {c | c ∈ cs} (bestOf cs)

theorem madeOfNumbers : MadeOfNumbers where
  unset_or_number c := by
    cases c with
    | unset => exact .inl rfl
    | of v hv => exact .inr ⟨v, rfl, (Double.isNumber_of_le hv.1).2, hv⟩
  ofValue_iff _ _ := ofValue_eq_ok_iff_value?
  ofJson?_iff _ _ := ofJson?_eq_some_iff
  combine_iff _ _ _ := Aggregation.combine_eq_ok_iff

theorem orderedByValues : OrderedByValues where
  compare_eq := compare_eq_compareValues
  refl a := by rw [compare_eq_cmp, cmp_self_eq_eq]
  swap := compare_swap
  beq_iff _ _ := beq_iff_compare_eq
  antisymm _ _ := beq_of_le_of_le
  trans _ _ _ := le_trans
  total := le_or_le
  unset_lt c hc := by
    cases c with
    | unset => cases hc
    | of v hv => exact lt_iff.mpr (WithBot.bot_lt_coe _)
  compare_values _ _ _ _ := compare_of_of
  zeros_beq _ _ := beq_iff.mpr rfl

theorem sortedStably (cs : List Confidence) : SortedStably cs where
  isStableSort_iff _ := isStableSort_iff
  perm := perm_sort cs
  ascending := (isStableSort_sort cs).ascending
  abstentions_first := by
    obtain ⟨ds, hds, hdefined⟩ := eq_replicate_append (isStableSort_sort cs).ascending
    exact ⟨ds, (perm_sort cs).countP_eq _ ▸ hds, hdefined⟩
  isGreatest_unset := isGreatest_foldl_best unset cs
  isGreatest := isGreatest_bestOf

/-- Confidences are totally ordered, wherever they come from, so that each list of them has exactly
one stable sort and a greatest element. -/
theorem totally_ordered : MadeOfNumbers ∧ OrderedByValues ∧ ∀ cs, SortedStably cs :=
  ⟨madeOfNumbers, orderedByValues, sortedStably⟩

end Confidence

end TraceRecovery
