import Mathlib.Data.Finset.Card
import TraceRecovery.Link.GoldStandard
import TraceRecovery.Proofs.Standard.Nodes

/-!
# What the four counts cover

The four counts of a run are sizes of sets: with `F` the pairs that are found and `G` those of the
gold standard, they are the sizes of `F ∩ G`, `F \ G` and `G \ F`, and what `F ∪ G` leaves of the
candidates (`GoldStandard.confusion_eq`). So they sum up to the number of candidates as long as
`F ∪ G` has no more pairs than that, and otherwise to the size of `F ∪ G`.

Links are candidates. The pairs of an enrolled gold standard are candidates too, except for those
entries that name no unit and no directory of one, which `GoldStandard.enroll` keeps
(`GoldStandard.stray_iff`). Only these can make the sum too large.
-/

namespace TraceRecovery

/-! ## Sorted sets as finite sets -/

namespace SortedSet

variable {α : Type} [Ord α] [DecidableEq α]

/-- The elements of a sorted set. -/
def toFinset (s : SortedSet α) : Finset α := s.elements.toFinset

variable {s : SortedSet α}

@[simp] theorem mem_toFinset {a : α} : a ∈ s.toFinset ↔ a ∈ s := List.mem_toFinset

variable [Std.ReflCmp (compare : α → α → Ordering)]

theorem card_toFinset : s.toFinset.card = s.size := List.toFinset_card_of_nodup s.nodup

theorem card_filter_toFinset (p : α → Bool) :
    {a ∈ s.toFinset | p a = true}.card = s.elements.countP p := by
  rw [List.countP_eq_length_filter, ← List.toFinset_card_of_nodup (s.nodup.filter p),
    List.toFinset_filter]
  rfl

end SortedSet

/-! ## Pairs of candidates -/

namespace CandidateSpace

/-- The ids of the two ends of each candidate. -/
def pairs (s : CandidateSpace) : Finset LinkPair :=
  (s.candidates.map fun c => (⟨c.item.id, c.unit.id⟩ : LinkPair)).toFinset

variable {s : CandidateSpace} {p : LinkPair}

theorem mem_pairs : p ∈ s.pairs ↔
    (∃ i ∈ s.architecture.items, i.id = p.item) ∧ ∃ u ∈ s.code.units, u.id = p.unit := by
  simp only [pairs, List.mem_toFinset, List.mem_map, mem_candidates]
  constructor
  · rintro ⟨c, ⟨hi, hu⟩, rfl⟩
    exact ⟨⟨c.item, hi, rfl⟩, c.unit, hu, rfl⟩
  · rintro ⟨⟨i, hi, hitem⟩, u, hu, hunit⟩
    exact ⟨⟨i, u⟩, ⟨hi, hu⟩, by rw [hitem, hunit]⟩

/-- Candidates are told apart by the ids of their ends. -/
theorem nodup_pairs (s : CandidateSpace) :
    (s.candidates.map fun c => (⟨c.item.id, c.unit.id⟩ : LinkPair)).Nodup := by
  refine s.nodup_candidates.map_on fun c hc d hd h => ?_
  obtain ⟨hitem, hunit⟩ := LinkPair.mk.inj h
  obtain ⟨hci, hcu⟩ := mem_candidates.mp hc
  obtain ⟨hdi, hdu⟩ := mem_candidates.mp hd
  cases c
  cases d
  rw [Candidate.mk.injEq]
  exact ⟨s.architecture.eq_of_id_eq hci hdi hitem, s.code.eq_of_id_eq hcu hdu hunit⟩

theorem card_pairs (s : CandidateSpace) : s.pairs.card = s.size := by
  rw [pairs, List.toFinset_card_of_nodup s.nodup_pairs, List.length_map, size]

end CandidateSpace

theorem Threshold.mem_pairs_of_mem_links {θ : Threshold} {s : CandidateSpace} {table : Table}
    {source : String} {links : List TraceLink} (h : θ.links s table source = .ok links)
    {l : TraceLink} (hl : l ∈ links) : ⟨l.itemId, l.unitId⟩ ∈ s.pairs := by
  obtain ⟨-, -, h⟩ := Fallible.bind_eq_ok_iff.mp h
  obtain rfl : s.candidates.filterMap (θ.link? table source) = links := Except.ok.inj h
  obtain ⟨c, hc, hlink⟩ := List.mem_filterMap.mp hl
  obtain ⟨hi, hu⟩ := CandidateSpace.mem_candidates.mp hc
  unfold link? at hlink
  split at hlink
  · cases hlink
  · split at hlink
    · obtain rfl := Option.some.inj hlink
      exact CandidateSpace.mem_pairs.mpr ⟨⟨c.item, hi, rfl⟩, c.unit, hu, rfl⟩
    · cases hlink

namespace GoldStandard

variable {g g' : GoldStandard} {links : List TraceLink} {s : CandidateSpace} {p : LinkPair}

/-! ## The counts -/

/-- The parts that two sets divide each other and their union into. -/
theorem card_parts (F G : Finset LinkPair) :
    (F ∩ G).card + (F \ G).card = F.card ∧ (F ∩ G).card + (G \ F).card = G.card ∧
      (F ∩ G).card + (F \ G).card + (G \ F).card = (F ∪ G).card := by
  have hF := Finset.card_inter_add_card_sdiff F G
  have hG := Finset.card_inter_add_card_sdiff G F
  have hunion := Finset.card_union_add_card_inter F G
  rw [Finset.inter_comm] at hG
  omega

theorem confusion_eq (links : List TraceLink) (g : GoldStandard) (candidates : Nat) :
    confusion links g candidates =
      ⟨((found links).toFinset ∩ g.pairs.toFinset).card,
        ((found links).toFinset \ g.pairs.toFinset).card,
        (g.pairs.toFinset \ (found links).toFinset).card,
        candidates - ((found links).toFinset ∪ g.pairs.toFinset).card⟩ := by
  have htrue : (found links).elements.countP g.contains =
      ((found links).toFinset ∩ g.pairs.toFinset).card := by
    rw [← SortedSet.card_filter_toFinset]
    refine congrArg Finset.card (Finset.ext fun p => ?_)
    rw [Finset.mem_filter, Finset.mem_inter, contains, SortedSet.contains_iff,
      SortedSet.mem_toFinset (s := g.pairs)]
  have hfound : (found links).size = (found links).toFinset.card := SortedSet.card_toFinset.symm
  have hgold : g.size = g.pairs.toFinset.card := SortedSet.card_toFinset.symm
  obtain ⟨hF, hG, hunion⟩ := card_parts (found links).toFinset g.pairs.toFinset
  simp only [confusion, htrue, hfound, hgold, Confusion.mk.injEq, true_and]
  omega

theorem total_confusion (links : List TraceLink) (g : GoldStandard) (candidates : Nat) :
    (confusion links g candidates).total =
      max candidates ((found links).toFinset ∪ g.pairs.toFinset).card := by
  obtain ⟨-, -, hunion⟩ := card_parts (found links).toFinset g.pairs.toFinset
  simp only [confusion_eq, Confusion.total]
  omega

/-! ## Enrolled pairs -/

/-- An entry names a unit, or a directory that some unit is below. -/
def Resolves (code : Code) (entry : String) : Prop :=
  (∃ u ∈ code.units, u.id = entry) ∨
    directories entry ≠ [] ∧ ∃ u ∈ code.units, directories entry <+: u.path

theorem mem_unitsBelow {code : Code} {directories : List String} {id : String} :
    id ∈ unitsBelow code directories ↔
      directories ≠ [] ∧ ∃ u ∈ code.units, directories <+: u.path ∧ u.id = id := by
  unfold unitsBelow
  cases directories with
  | nil => simp
  | cons d ds => simp [and_assoc]

theorem isSome_unit?_iff {code : Code} {id : String} :
    (code.unit? id).isSome = true ↔ ∃ u ∈ code.units, u.id = id := by
  simp [Code.unit?]

/-- An entry that resolves stands for units only. -/
theorem Resolves.exists_unit {code : Code} {entry id : String} (h : Resolves code entry)
    (hid : id ∈ expand code entry) : ∃ u ∈ code.units, u.id = id := by
  unfold expand at hid
  split at hid
  · rename_i hsome
    obtain rfl := List.mem_singleton.mp hid
    exact isSome_unit?_iff.mp hsome
  · rename_i hsome
    obtain ⟨hne, u, hu, hprefix⟩ := h.resolve_left (isSome_unit?_iff.not.mp hsome)
    have hbelow : u.id ∈ unitsBelow code (directories entry) :=
      mem_unitsBelow.mpr ⟨hne, u, hu, hprefix, rfl⟩
    simp only [List.isEmpty_eq_false_iff.mpr (List.ne_nil_of_mem hbelow), Bool.false_eq_true,
      if_false] at hid
    obtain ⟨-, v, hv, -, hid⟩ := mem_unitsBelow.mp hid
    exact ⟨v, hv, hid⟩

/-- An entry that does not stands for itself. -/
theorem expand_of_not_resolves {code : Code} {entry : String} (h : ¬ Resolves code entry) :
    expand code entry = [entry] := by
  have hunit : ¬ (code.unit? entry).isSome = true := fun hs => h (.inl (isSome_unit?_iff.mp hs))
  have hbelow : unitsBelow code (directories entry) = [] :=
    List.eq_nil_iff_forall_not_mem.mpr fun id hid => by
      obtain ⟨hne, u, hu, hprefix, -⟩ := mem_unitsBelow.mp hid
      exact h (.inr ⟨hne, u, hu, hprefix⟩)
  rw [expand, if_neg hunit, hbelow]
  rfl

theorem ensureItems_eq_ok {a : Architecture} {ps : List LinkPair} (h : ensureItems a ps = .ok ()) :
    ∀ p ∈ ps, ∃ i ∈ a.items, i.id = p.item := by
  induction ps with
  | nil => simp
  | cons p ps ih =>
    obtain ⟨i, hi, h⟩ := Fallible.bind_eq_ok_iff.mp h
    refine List.forall_mem_cons.mpr ⟨?_, ih h⟩
    unfold Architecture.item at hi
    split at hi
    · rename_i j hj
      exact ⟨j, List.mem_of_find?_eq_some hj, by simpa using List.find?_some hj⟩
    · cases hi

variable (henroll : g.enroll s.architecture s.code = .ok g')

include henroll

theorem mem_enrolled : p ∈ g'.pairs ↔
    ∃ q ∈ g.pairs, q.item = p.item ∧ p.unit ∈ expand s.code q.unit := by
  obtain ⟨-, -, h⟩ := Fallible.bind_eq_ok_iff.mp henroll
  obtain rfl := Except.ok.inj h
  show p ∈ SortedSet.ofList _ ↔ _
  simp only [SortedSet.mem_ofList, List.mem_flatMap, List.mem_map]
  refine exists_congr fun q => and_congr_right fun _ => ?_
  constructor
  · rintro ⟨id, hid, rfl⟩
    exact ⟨rfl, hid⟩
  · rintro ⟨hitem, hid⟩
    exact ⟨p.unit, hid, by rw [hitem]⟩

/-- The pairs of an enrolled gold standard that are no candidates are its entries that do not
resolve. -/
theorem stray_iff : p ∈ g'.pairs ∧ p ∉ s.pairs ↔ p ∈ g.pairs ∧ ¬ Resolves s.code p.unit := by
  have hitems : ∀ q ∈ g.pairs, ∃ i ∈ s.architecture.items, i.id = q.item := by
    obtain ⟨u, hensure, -⟩ := Fallible.bind_eq_ok_iff.mp henroll
    exact ensureItems_eq_ok hensure
  rw [mem_enrolled henroll, CandidateSpace.mem_pairs]
  constructor
  · rintro ⟨⟨q, hq, hitem, hunit⟩, hstray⟩
    have hresolves : ¬ Resolves s.code q.unit := fun h =>
      hstray ⟨hitem ▸ hitems q hq, h.exists_unit hunit⟩
    rw [expand_of_not_resolves hresolves, List.mem_singleton] at hunit
    obtain rfl : q = p := by
      cases p
      cases q
      rw [LinkPair.mk.injEq]
      exact ⟨hitem, hunit.symm⟩
    exact ⟨hq, hresolves⟩
  · rintro ⟨hp, hresolves⟩
    refine ⟨⟨p, hp, rfl, ?_⟩, fun h => hresolves (.inl h.2)⟩
    rw [expand_of_not_resolves hresolves]
    exact List.mem_singleton_self _

/-! ## The sum of the counts -/

/-- The four counts sum up to the number of candidates unless there are more pairs that are found or
correct than candidates, and then to the number of these. As links are candidates, only entries of
the gold standard that name neither a unit nor a directory of one can make the sum too large: it
exceeds the number of candidates by at most the number of such entries. -/
theorem counts_cover_candidates {θ : Threshold} {table : Table} {source : String}
    (hlinks : θ.links s table source = .ok links) :
    (confusion links g' s.size).total =
        max s.size ((found links).toFinset ∪ g'.pairs.toFinset).card ∧
      (confusion links g' s.size).total ≤
        s.size + (g'.pairs.toFinset \ s.pairs).card ∧
      (∀ p, p ∈ g'.pairs.toFinset \ s.pairs ↔ p ∈ g.pairs ∧ ¬ Resolves s.code p.unit) ∧
      ((∀ p ∈ g.pairs, Resolves s.code p.unit) →
        (confusion links g' s.size).total = s.size) := by
  have hfound : (found links).toFinset ⊆ s.pairs := fun p hp => by
    rw [SortedSet.mem_toFinset, found, SortedSet.mem_ofList] at hp
    obtain ⟨l, hl, rfl⟩ := List.mem_map.mp hp
    exact Threshold.mem_pairs_of_mem_links hlinks hl
  have hstray : ∀ p, p ∈ g'.pairs.toFinset \ s.pairs ↔
      p ∈ g.pairs ∧ ¬ Resolves s.code p.unit := fun p => by
    rw [Finset.mem_sdiff, SortedSet.mem_toFinset, stray_iff henroll]
  have hbound : ((found links).toFinset ∪ g'.pairs.toFinset).card ≤
      s.size + (g'.pairs.toFinset \ s.pairs).card := by
    have hsub : (found links).toFinset ∪ g'.pairs.toFinset ⊆
        s.pairs ∪ (g'.pairs.toFinset \ s.pairs) := by
      rw [Finset.union_sdiff_self_eq_union]
      exact Finset.union_subset_union_left hfound
    calc ((found links).toFinset ∪ g'.pairs.toFinset).card
        ≤ (s.pairs ∪ (g'.pairs.toFinset \ s.pairs)).card := Finset.card_le_card hsub
      _ ≤ s.pairs.card + (g'.pairs.toFinset \ s.pairs).card := Finset.card_union_le _ _
      _ = s.size + (g'.pairs.toFinset \ s.pairs).card := by rw [s.card_pairs]
  have htotal := total_confusion links g' s.size
  refine ⟨htotal, htotal ▸ max_le (Nat.le_add_right _ _) hbound, hstray, fun hall => ?_⟩
  have hnone : g'.pairs.toFinset \ s.pairs = ∅ :=
    Finset.eq_empty_of_forall_notMem fun p hp =>
      ((hstray p).mp hp).2 (hall p ((hstray p).mp hp).1)
  rw [htotal]
  rw [hnone, Finset.card_empty, Nat.add_zero] at hbound
  exact max_eq_left hbound

omit henroll in
open OrderDesk in
/-- The only candidate is found, and an entry names the directory of its unit: the counts sum up to
one. -/
theorem counts_cover_candidates_orderDesk : ∃ t e θ links g',
    Tree.standard .default = .ok t ∧ t.run single false = .ok e ∧
    Threshold.ofValue Settings.default.threshold = .ok θ ∧ e.links θ = .ok links ∧
    (ofPairs [⟨"a", "orders/"⟩]).enroll single.architecture single.code = .ok g' ∧
    confusion links g' single.size = ⟨1, 0, 0, 0⟩ ∧
    (confusion links g' single.size).total = single.size := by
  obtain ⟨⟨⟨e, links⟩, g'⟩, h, hcounts⟩ := Fallible.exists_of_any_toOption
    (x := do
      let t ← Tree.standard .default
      let e ← t.run single false
      let θ ← Threshold.ofValue Settings.default.threshold
      let links ← e.links θ
      let g' ← (ofPairs [⟨"a", "orders/"⟩]).enroll single.architecture single.code
      return ((e, links), g'))
    (p := fun r => decide (confusion r.1.2 r.2 single.size = ⟨1, 0, 0, 0⟩))
    (by decide +kernel)
  obtain ⟨t, ht, h⟩ := Fallible.bind_eq_ok_iff.mp h
  obtain ⟨e, he, h⟩ := Fallible.bind_eq_ok_iff.mp h
  obtain ⟨θ, hθ, h⟩ := Fallible.bind_eq_ok_iff.mp h
  obtain ⟨links, hlinks, h⟩ := Fallible.bind_eq_ok_iff.mp h
  obtain ⟨g', henroll, h⟩ := Fallible.bind_eq_ok_iff.mp h
  obtain ⟨⟨rfl, rfl⟩, rfl⟩ := Except.ok.inj h
  have hspace : e.space = single :=
    (Tree.finished_of_run_eq_ok t.listedTurns ((Tree.run_runInTurns_pure false _).trans he)).space_eq
  have hresolves : ∀ p ∈ (ofPairs [⟨"a", "orders/"⟩]).pairs, Resolves single.code p.unit := by
    intro p hp
    obtain rfl := List.mem_singleton.mp (SortedSet.mem_ofList.mp hp)
    exact .inr ⟨by decide, _, List.mem_singleton_self _, by decide⟩
  have htable : θ.links single e.result e.treeName = .ok links := by
    rw [← hspace]
    exact hlinks
  obtain ⟨-, -, -, htotal⟩ := counts_cover_candidates henroll htable
  exact ⟨t, e, θ, links, g', ht, he, hθ, hlinks, henroll, of_decide_eq_true hcounts,
    htotal hresolves⟩

omit henroll in
open OrderDesk in
/-- Where the only candidate is found and correct, an entry that names nothing makes the counts sum
up to two. -/
theorem counts_exceed_candidates : ∃ t e θ links g g',
    Tree.standard .default = .ok t ∧ t.run single false = .ok e ∧
    Threshold.ofValue Settings.default.threshold = .ok θ ∧ e.links θ = .ok links ∧
    ofText "architecture_id,code_id\na,x\na,gone\n" = .ok g ∧
    g.enroll single.architecture single.code = .ok g' ∧ single.size = 1 ∧
    confusion links g' single.size = ⟨1, 0, 1, 0⟩ := by
  obtain ⟨⟨links, g'⟩, h, hcounts⟩ := Fallible.exists_of_any_toOption
    (x := do
      let t ← Tree.standard .default
      let e ← t.run single false
      let θ ← Threshold.ofValue Settings.default.threshold
      let links ← e.links θ
      let g ← ofText "architecture_id,code_id\na,x\na,gone\n"
      let g' ← g.enroll single.architecture single.code
      return (links, g'))
    (p := fun r => decide (confusion r.1 r.2 single.size = ⟨1, 0, 1, 0⟩))
    (by decide +kernel)
  obtain ⟨t, ht, h⟩ := Fallible.bind_eq_ok_iff.mp h
  obtain ⟨e, he, h⟩ := Fallible.bind_eq_ok_iff.mp h
  obtain ⟨θ, hθ, h⟩ := Fallible.bind_eq_ok_iff.mp h
  obtain ⟨links', hlinks, h⟩ := Fallible.bind_eq_ok_iff.mp h
  obtain ⟨g, hg, h⟩ := Fallible.bind_eq_ok_iff.mp h
  obtain ⟨g'', henroll, h⟩ := Fallible.bind_eq_ok_iff.mp h
  obtain ⟨rfl, rfl⟩ := Prod.mk.inj (Except.ok.inj h)
  exact ⟨t, e, θ, links', g, g'', ht, he, hθ, hlinks, hg, henroll, rfl, of_decide_eq_true hcounts⟩

end GoldStandard

end TraceRecovery
