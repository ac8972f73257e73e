import TraceRecovery.Proofs.Link.Coverage

/-!
# Raising the threshold

The links of a sealed table are its candidates with a confidence of at least the threshold, each
described by one link, in the order of the candidates (`Threshold.Lists`). As a higher threshold
admits fewer confidences, its links are those of a lower one whose confidences reach it
(`Threshold.links_filter`). Links are told apart by the ids of their ends, so there are as many of
them as of pairs that are found, and whichever gold standard they are compared with, a higher
threshold finds no more pairs rightly or wrongly and leaves no fewer of them out
(`GoldStandard.fewer_found`).
-/

namespace TraceRecovery

/-! ## Links and their candidates -/

namespace TraceLink

/-- The ids of the two ends of a link. -/
def pair (l : TraceLink) : LinkPair := ⟨l.itemId, l.unitId⟩

/-- A link names the two ends of a candidate and has the confidence that a table gives it. -/
structure Describes (table : Table) (source : String) (c : Candidate) (l : TraceLink) : Prop where
  itemId : l.itemId = c.item.id
  itemName : l.itemName = c.item.name
  unitId : l.unitId = c.unit.id
  unitName : l.unitName = c.unit.name
  confidence : ∃ h, table.get c = .of l.confidence h
  source : l.source = source

end TraceLink

namespace Threshold

variable {θ low high : Threshold} {s : CandidateSpace} {table : Table} {source : String}

/-- Some links describe the candidates that reach the threshold, one by one in their order, and no
two of them connect the same pair. -/
structure Lists (θ : Threshold) (s : CandidateSpace) (table : Table) (source : String)
    (links : List TraceLink) : Prop where
  describes : List.Forall₂ (TraceLink.Describes table source)
    (s.candidates.filter fun c => θ.admits (table.get c)) links
  distinct : (links.map TraceLink.pair).Nodup

theorem describes_of_link? {c : Candidate} {l : TraceLink}
    (h : θ.link? table source c = some l) : l.Describes table source c := by
  unfold link? at h
  split at h
  · cases h
  · rename_i v hv hget
    split at h
    · obtain rfl := Option.some.inj h
      exact ⟨rfl, rfl, rfl, rfl, ⟨hv, hget⟩, rfl⟩
    · cases h

theorem forall₂_describes (θ : Threshold) (table : Table) (source : String)
    (cs : List Candidate) :
    List.Forall₂ (TraceLink.Describes table source)
      (cs.filter fun c => θ.admits (table.get c)) (cs.filterMap (θ.link? table source)) := by
  induction cs with
  | nil => exact .nil
  | cons c cs ih =>
    have hadmits : θ.admits (table.get c) = (θ.link? table source c).isSome := isSome_link?.symm
    rw [List.filter_cons, List.filterMap_cons, hadmits]
    cases h : θ.link? table source c with
    | none => exact ih
    | some l => exact .cons (describes_of_link? h) ih

theorem links_eq_ok (hsealed : table.isSealed = true) :
    θ.links s table source = .ok (s.candidates.filterMap (θ.link? table source)) := by
  unfold links Table.ensureSealed
  rw [if_pos hsealed]
  rfl

/-- Links connect the pairs of the candidates that they describe, which are distinct. -/
theorem lists_links (θ : Threshold) (s : CandidateSpace) (table : Table) (source : String) :
    θ.Lists s table source (s.candidates.filterMap (θ.link? table source)) := by
  have hdescribes := forall₂_describes θ table source s.candidates
  refine ⟨hdescribes, ?_⟩
  have hpairs : (s.candidates.filterMap (θ.link? table source)).map TraceLink.pair =
      (s.candidates.filter fun c => θ.admits (table.get c)).map
        fun c => (⟨c.item.id, c.unit.id⟩ : LinkPair) := by
    rw [← List.forall₂_eq_eq_eq, List.forall₂_map_left_iff, List.forall₂_map_right_iff]
    exact hdescribes.flip.imp fun l c h => by rw [TraceLink.pair, h.itemId, h.unitId]
  rw [hpairs]
  exact s.nodup_pairs.sublist (List.filter_sublist.map _)

/-- The links at a higher threshold are those at a lower one whose confidences reach it. -/
theorem links_filter (hle : low.value ≤ high.value) (table : Table) (source : String)
    (cs : List Candidate) :
    cs.filterMap (high.link? table source) =
      (cs.filterMap (low.link? table source)).filter fun l => high.value ≤ l.confidence := by
  rw [List.filter_filterMap]
  refine congrArg (List.filterMap · cs) (funext fun c => ?_)
  unfold link?
  cases table.get c with
  | unset => rfl
  | of v hv =>
    by_cases hhigh : high.value ≤ v
    · have hlow : low.value ≤ v := Double.le_trans hle hhigh
      simp [hlow, hhigh, Option.filter]
    · by_cases hlow : low.value ≤ v <;> simp [hlow, hhigh, Option.filter]

end Threshold

/-! ## Counts -/

namespace GoldStandard

variable {fewer more : List TraceLink}

theorem found_toFinset (links : List TraceLink) :
    (found links).toFinset = (links.map TraceLink.pair).toFinset := by
  refine Finset.ext fun p => SortedSet.mem_toFinset.trans ?_
  exact SortedSet.mem_ofList.trans List.mem_toFinset.symm

/-- Links that connect distinct pairs are as many as the pairs that are found. -/
theorem found_add_eq_length (hn : (more.map TraceLink.pair).Nodup) (g : GoldStandard)
    (candidates : Nat) :
    (confusion more g candidates).truePositives + (confusion more g candidates).falsePositives =
      more.length := by
  have hcard : (found more).toFinset.card = more.length := by
    rw [found_toFinset, List.toFinset_card_of_nodup hn, List.length_map]
  rw [confusion_eq, ← hcard]
  exact Finset.card_inter_add_card_sdiff (found more).toFinset g.pairs.toFinset

/-- Fewer links are right or wrong in fewer cases, and leave out no fewer pairs. -/
theorem fewer_found (h : fewer ⊆ more) (g : GoldStandard) (candidates : Nat) :
    (confusion fewer g candidates).truePositives ≤ (confusion more g candidates).truePositives ∧
      (confusion fewer g candidates).falsePositives ≤
        (confusion more g candidates).falsePositives ∧
      (confusion more g candidates).falseNegatives ≤
        (confusion fewer g candidates).falseNegatives ∧
      (confusion more g candidates).trueNegatives ≤
        (confusion fewer g candidates).trueNegatives := by
  have hsub : (found fewer).toFinset ⊆ (found more).toFinset := by
    rw [found_toFinset, found_toFinset]
    exact fun p hp => List.mem_toFinset.mpr (List.map_subset _ h (List.mem_toFinset.mp hp))
  simp only [confusion_eq]
  exact ⟨Finset.card_le_card (Finset.inter_subset_inter_right hsub),
    Finset.card_le_card (Finset.sdiff_subset_sdiff hsub subset_rfl),
    Finset.card_le_card (Finset.sdiff_subset_sdiff subset_rfl hsub),
    Nat.sub_le_sub_left (Finset.card_le_card (Finset.union_subset_union_left hsub)) _⟩

end GoldStandard

namespace Threshold

variable {low high : Threshold} {table : Table}

/-- The links of a sealed table at a higher threshold are those at a lower one whose confidences
reach it. At both, the links describe the candidates that reach the threshold in their order and
connect distinct pairs. So against any gold standard a higher threshold yields no more right and no
more wrong links, and leaves out no fewer pairs wrongly or rightly. -/
theorem raising_removes_links (hle : low.value ≤ high.value) (hsealed : table.isSealed = true)
    (s : CandidateSpace) (source : String) : ∃ more fewer,
    low.links s table source = .ok more ∧ high.links s table source = .ok fewer ∧
      fewer = more.filter (fun l => high.value ≤ l.confidence) ∧
      low.Lists s table source more ∧ high.Lists s table source fewer ∧
      ∀ (g : GoldStandard) (candidates : Nat),
        let below := (g.evaluate more candidates).confusion
        let above := (g.evaluate fewer candidates).confusion
        above.truePositives ≤ below.truePositives ∧
          above.falsePositives ≤ below.falsePositives ∧
          below.falseNegatives ≤ above.falseNegatives ∧
          below.trueNegatives ≤ above.trueNegatives ∧
          below.truePositives + below.falsePositives = more.length ∧
          above.truePositives + above.falsePositives = fewer.length := by
  have hmore := lists_links low s table source
  have hfewer := lists_links high s table source
  have hfilter := links_filter hle table source s.candidates
  refine ⟨_, _, links_eq_ok hsealed, links_eq_ok hsealed, hfilter, hmore, hfewer, ?_⟩
  intro g candidates
  have hsubset : s.candidates.filterMap (high.link? table source) ⊆
      s.candidates.filterMap (low.link? table source) := hfilter ▸ List.filter_subset_self _
  obtain ⟨htrue, hfalse, hmissed, hleft⟩ := GoldStandard.fewer_found hsubset g candidates
  exact ⟨htrue, hfalse, hmissed, hleft, GoldStandard.found_add_eq_length hmore.distinct g candidates,
    GoldStandard.found_add_eq_length hfewer.distinct g candidates⟩

open OrderDesk in
/-- Of the six candidates of two items and three units, three have a confidence of at least a
quarter, and one of them has one of at least a half. -/
theorem raising_removes_links_orderDesk : ∃ (low high : Threshold) (table : Table)
    (more fewer : List TraceLink),
    low.value ≤ high.value ∧ table.isSealed = true ∧
      low.links ⟨architecture, code⟩ table "desk" = .ok more ∧
      high.links ⟨architecture, code⟩ table "desk" = .ok fewer ∧
      more.map TraceLink.pair = [⟨"orders", "a"⟩, ⟨"orders", "b"⟩, ⟨"billing", "c"⟩] ∧
      fewer.map TraceLink.pair = [⟨"orders", "a"⟩] ∧
      fewer = more.filter (fun l => high.value ≤ l.confidence) := by
  let low : Threshold := ⟨0.25, by decide +kernel⟩
  let high : Threshold := ⟨0.5, by decide +kernel⟩
  let table := Table.full "desk" ⟨architecture, code⟩
    [.of 1 (by decide), .of 0.25 low.inRange, .unset, .of 0 (by decide), .unset,
      .of 0.25 low.inRange]
  have hle : low.value ≤ high.value := by decide +kernel
  have hsealed : table.isSealed = true := rfl
  obtain ⟨more, fewer, hmore, hfewer, hfilter, -⟩ :=
    raising_removes_links hle hsealed ⟨architecture, code⟩ "desk"
  refine ⟨low, high, table, more, fewer, hle, hsealed, hmore, hfewer, ?_, ?_, hfilter⟩
  · rw [← Except.ok.inj hmore]
    decide +kernel
  · rw [← Except.ok.inj hfewer]
    decide +kernel

end Threshold

end TraceRecovery
