import TraceRecovery.Proofs.Heuristic.Reordered
import TraceRecovery.Proofs.Standard.Nodes
import TraceRecovery.Proofs.Tree.Refinement

/-!
# More code

What happens to the scores when units are added to the code. Nodes that look only at a candidate are
not concerned, nor is their weighted mean (`StandardNode.Tabled.get_eq_of_within`). The two nodes
that extend it take a maximum over linked units, of which there can only be more. So no node gives
less to a candidate than before (`StandardNode.Tabled.get_le_of_within`), and no link is lost
(`StandardNode.no_link_lost`).

All of this is stated for a space within another (`CandidateSpace.Within`), where each unit has a
counterpart with the same types in any order, and order does not matter elsewhere either.
-/

namespace TraceRecovery

/-- Another space has the same items and packages, and each unit up to the order of its types. It
may have further units. -/
structure CandidateSpace.Within (s s' : CandidateSpace) : Prop where
  item_mem_iff : ∀ i, i ∈ s.architecture.items ↔ i ∈ s'.architecture.items
  package_mem_iff : ∀ p, p ∈ s.code.packages ↔ p ∈ s'.code.packages
  exists_unit : ∀ u ∈ s.code.units, ∃ u' ∈ s'.code.units, u.Reordered u'

variable {σ : Settings} {t : Tree} {s s' : CandidateSpace} {e e' : Evaluation}
  {T T' : StandardNode → Table} {i : Item} {u u' : CodeUnit}

namespace CandidateSpace.Within

variable (hw : s.Within s')

include hw

theorem packageNames_eq : (Context.ofModels s.architecture s.code).packageNames =
    (Context.ofModels s'.architecture s'.code).packageNames :=
  SortedSet.ext_mem fun x => by
    simp only [Context.ofModels, SortedSet.mem_ofList, List.mem_map, hw.package_mem_iff]

theorem architectureWords_eq : (Context.ofModels s.architecture s.code).architectureWords =
    (Context.ofModels s'.architecture s'.code).architectureWords :=
  SortedSet.ext_mem fun x => by
    simp only [Context.ofModels, SortedSet.mem_ofList, List.mem_flatMap, hw.item_mem_iff]

theorem ignoredWords_eq (commonWords : List String) (base base' : Table) :
    Companion.ignoredWords commonWords (.reading s base) =
      Companion.ignoredWords commonWords (.reading s' base') := by
  show (commonWords.map Text.lower).filter (fun w =>
      !(Context.ofModels s.architecture s.code).architectureWords.contains w) = _
  rw [hw.architectureWords_eq]
  rfl

/-- Candidates have counterparts. -/
theorem exists_candidate (hc : ⟨i, u⟩ ∈ s.candidates) :
    ∃ u', ⟨i, u'⟩ ∈ s'.candidates ∧ u.Reordered u' := by
  obtain ⟨hi, hu⟩ := CandidateSpace.mem_candidates.mp hc
  obtain ⟨u', hu', hr⟩ := hw.exists_unit u hu
  exact ⟨u', CandidateSpace.mem_candidates.mpr ⟨(hw.item_mem_iff i).mp hi, hu'⟩, hr⟩

end CandidateSpace.Within

namespace StandardNode

open CandidateSpace (Within)

/-! ## One node -/

/-- The nodes that look only at a candidate give to counterparts what they give to it. -/
theorem score_of_within (hw : s.Within s') (hT : Tabled σ s T) (T' : StandardNode → Table)
    (hc : ⟨i, u⟩ ∈ s.candidates) (hr : u.Reordered u') :
    ∀ n ∈ [names, paths, outside, interfaces],
      n.score σ s' T' ⟨i, u'⟩ = .ok ((T n).get ⟨i, u⟩) := by
  intro n hn
  have hscore := hT.score_eq n _ hc
  simp only [List.mem_cons, List.not_mem_nil, or_false] at hn
  rcases hn with rfl | rfl | rfl | rfl
  · exact NameMatch.score_reordered hr hscore
  · exact (PathMatch.score_reordered hr hw.packageNames_eq).symm.trans hscore
  · exact NameMatch.score_reordered hr hscore
  · exact NameMatch.score_reordered hr hscore

/-- The weighted mean follows from what it is the mean of. -/
theorem score_weighted_congr {c c' : Candidate}
    (h : ∀ m ∈ weighted.reads, (T m).get c = (T' m).get c') :
    weighted.score σ s T c = weighted.score σ s' T' c' := by
  have hmap : (weighted.reads.map fun m => (T m).get c) =
      weighted.reads.map fun m => (T' m).get c' := List.map_congr_left h
  simp only [score, hmap]

namespace Tabled

variable (hT : Tabled σ s T) (hT' : Tabled σ s' T') (hw : s.Within s')
  (hc : ⟨i, u⟩ ∈ s.candidates) (hc' : ⟨i, u'⟩ ∈ s'.candidates) (hr : u.Reordered u')

include hT hT' hw hc hc' hr

theorem get_eq_of_local : ∀ n ∈ [names, paths, outside, interfaces],
    (T' n).get ⟨i, u'⟩ = (T n).get ⟨i, u⟩ :=
  fun n hn => hT'.get_eq hc' (score_of_within hw hT T' hc hr n hn)

theorem weighted_eq_of_within : (T' weighted).get ⟨i, u'⟩ = (T weighted).get ⟨i, u⟩ := by
  have hlocal := hT.get_eq_of_local hT' hw hc hc' hr
  refine hT'.get_eq hc' ?_
  rw [← hT.score_eq weighted _ hc]
  refine score_weighted_congr fun m hm => hlocal m ?_
  revert hm
  cases m <;> decide

/-- Nodes that look only at a candidate, and the weighted mean of two of them, give the same to a
counterpart. -/
theorem get_eq_of_within : ∀ n ∈ [weighted, outside, interfaces, names, paths],
    (T' n).get ⟨i, u'⟩ = (T n).get ⟨i, u⟩ := by
  have hlocal := hT.get_eq_of_local hT' hw hc hc' hr
  have hweighted := hT.weighted_eq_of_within hT' hw hc hc' hr
  simp only [List.forall_mem_cons, List.not_mem_nil, false_implies, implies_true, and_true]
    at hlocal ⊢
  obtain ⟨hnames, hpaths, houtside, hinterfaces⟩ := hlocal
  exact ⟨hweighted, houtside, hinterfaces, hnames, hpaths⟩

omit hc' hr in
/-- Linked units stay linked. -/
theorem linkedWithin_of_within : (T weighted).LinkedWithin (T' weighted) i := by
  intro v hv
  obtain ⟨hmem, hdefined⟩ := (Table.mem_linkedUnits_iff (hT.written weighted) hc).mp hv
  obtain ⟨v', hmem', hr⟩ := hw.exists_candidate hmem
  have hget := hT.weighted_eq_of_within hT' hw hmem hmem' hr
  have hlinked := (Table.mem_linkedUnits_iff (hT'.written weighted) hmem').mpr
    ⟨hmem', hget ▸ hdefined⟩
  exact ⟨v', hlinked, hr, hget.symm⟩

theorem extended_le_of_within : ∀ n ∈ [companions, heirs],
    (T n).get ⟨i, u⟩ ≤ (T' n).get ⟨i, u'⟩ := by
  intro n hn
  have hweighted := hT.weighted_eq_of_within hT' hw hc hc' hr
  have hlinked := hT.linkedWithin_of_within hT' hw hc
  rcases Confidence.isDefined_or_eq_unset ((T weighted).get ⟨i, u⟩) with hdefined | hbase
  · rw [hT.carried hc hdefined n hn, hT'.carried hc' (hweighted ▸ hdefined) n hn, hweighted]
  · have hbase' := hweighted.trans hbase
    simp only [List.mem_cons, List.not_mem_nil, or_false] at hn
    rcases hn with rfl | rfl
    · rw [hT.companions_eq hc hbase, hT'.companions_eq hc' hbase',
        hw.ignoredWords_eq _ _ (T' weighted)]
      exact Companion.extension_le _ hr hlinked
    · rw [hT.heirs_eq hc hbase, hT'.heirs_eq hc' hbase']
      exact Inheritance.extension_le hr hlinked

/-- No node gives less to a counterpart. -/
theorem get_le_of_within (n : StandardNode) : (T n).get ⟨i, u⟩ ≤ (T' n).get ⟨i, u'⟩ := by
  have heq := hT.get_eq_of_within hT' hw hc hc' hr
  have hle := hT.extended_le_of_within hT' hw hc hc' hr
  -- Only the root needs the hypothesis: the other nodes have been looked at one by one.
  induction n using reads_induction with
  | step n ih =>
    cases n
    case root =>
      rw [hT.get_eq hc rfl, hT'.get_eq hc' rfl]
      refine Confidence.bestOf_le_bestOf fun x hx => ?_
      obtain ⟨m, hm, rfl⟩ := List.mem_map.mp hx
      exact ⟨_, List.mem_map_of_mem hm, ih m hm⟩
    case companions => exact hle _ (by simp)
    case heirs => exact hle _ (by simp)
    all_goals exact (heq _ (by simp)).ge

end Tabled

/-! ## The links -/

/-- The link of a candidate is a link where the confidence is not less. -/
theorem exists_link?_of_le {θ : Threshold} {tb tb' : Table} {source : String} {l : TraceLink}
    {c : Candidate} (h : tb.get c ≤ tb'.get c) (hl : θ.link? tb source c = some l) :
    ∃ v, l.confidence ≤ v ∧ θ.link? tb' source c = some { l with confidence := v } := by
  unfold Threshold.link? at hl ⊢
  cases hv : tb.get c with
  | unset =>
    rw [hv] at hl
    cases hl
  | of v hrange =>
    cases hv' : tb'.get c with
    | unset =>
      rw [hv, hv'] at h
      cases Confidence.eq_unset_of_le h
    | of v' hrange' =>
      rw [hv, hv', Confidence.of_le_of_iff] at h
      rw [hv] at hl
      dsimp only at hl ⊢
      split at hl
      · rename_i hθ
        rw [← Option.some.inj hl, if_pos (Double.le_trans hθ h)]
        exact ⟨v', h, rfl⟩
      · cases hl

/-- Units that are added to the code, at any place among its units, take away no link: whatever the
threshold is, each link is still there, with at least the same confidence. No candidate gets less
confidence from the root, and those nodes that do not extend another give it the same. -/
theorem no_link_lost {a : Architecture} {k k' : Code} (ht : Tree.standard σ = .ok t)
    (hpackages : ∀ p, p ∈ k.packages ↔ p ∈ k'.packages) (hunits : ∀ u ∈ k.units, u ∈ k'.units)
    (w w' : t.Turns) {ρ ρ' : Type} {isCancelled : StateM ρ Bool} {isCancelled' : StateM ρ' Bool}
    {st : ρ} {st' : ρ'} (hrun : ((t.runInTurns isCancelled ⟨a, k⟩ w).run st).1 = .ok e)
    (hrun' : ((t.runInTurns isCancelled' ⟨a, k'⟩ w').run st').1 = .ok e') :
    ∃ T T' : StandardNode → Table, Published e T ∧ Published e' T' ∧
      (∀ c ∈ CandidateSpace.candidates ⟨a, k⟩, c ∈ CandidateSpace.candidates ⟨a, k'⟩ ∧
        e.result.get c ≤ e'.result.get c ∧
        ∀ n ∈ [weighted, outside, interfaces, names, paths], (T' n).get c = (T n).get c) ∧
      ∀ θ : Threshold, ∃ links links', e.links θ = .ok links ∧ e'.links θ = .ok links' ∧
        ∀ l ∈ links, ∃ v, l.confidence ≤ v ∧ { l with confidence := v } ∈ links' := by
  have hfinished := Tree.finished_of_run_eq_ok w hrun
  have hfinished' := Tree.finished_of_run_eq_ok w' hrun'
  obtain ⟨T, hpublished, hT⟩ := exists_tabled ht hfinished
  obtain ⟨T', hpublished', hT'⟩ := exists_tabled ht hfinished'
  have hw : CandidateSpace.Within ⟨a, k⟩ ⟨a, k'⟩ :=
    ⟨fun _ => .rfl, hpackages, fun u hu => ⟨u, hunits u hu, .refl u⟩⟩
  have hmem : ∀ c ∈ CandidateSpace.candidates ⟨a, k⟩, c ∈ CandidateSpace.candidates ⟨a, k'⟩ :=
    fun c hc => CandidateSpace.mem_candidates.mpr
      ((CandidateSpace.mem_candidates.mp hc).imp_right (hunits c.unit))
  have hroot : ∀ c ∈ CandidateSpace.candidates ⟨a, k⟩, (T root).get c ≤ (T' root).get c :=
    fun c hc => hT.get_le_of_within hT' hw hc (hmem c hc) (.refl c.unit) root
  refine ⟨T, T', hpublished, hpublished', fun c hc => ⟨hmem c hc, ?_, ?_⟩, fun θ => ?_⟩
  · rw [hpublished.result_eq, hpublished'.result_eq]
    exact hroot c hc
  · exact hT.get_eq_of_within hT' hw hc (hmem c hc) (.refl c.unit)
  · refine ⟨_, _, hT.links_eq hpublished hfinished θ, hT'.links_eq hpublished' hfinished' θ, ?_⟩
    intro l hl
    obtain ⟨c, hc, hlink⟩ := List.mem_filterMap.mp hl
    obtain ⟨v, hv, hlink'⟩ := exists_link?_of_le (hroot c hc) hlink
    exact ⟨v, hv, List.mem_filterMap.mpr ⟨c, hmem c hc, hlink'⟩⟩

open OrderDesk in
/-- The unit that the component is named after is added to the other two. -/
theorem no_link_lost_orderDesk : ∃ (k : Code) (t : Tree) (e e' : Evaluation),
    k.units = [invoiceUnit, billingUnit] ∧ Tree.standard .default = .ok t ∧
    t.run ⟨architecture, k⟩ false = .ok e ∧ t.run ⟨architecture, code⟩ false = .ok e' ∧
    e.result.get ⟨orders, invoiceUnit⟩ ≤ e'.result.get ⟨orders, invoiceUnit⟩ ∧
    ∀ θ : Threshold, ∃ links links', e.links θ = .ok links ∧ e'.links θ = .ok links' ∧
      ∀ l ∈ links, ∃ v, l.confidence ≤ v ∧ { l with confidence := v } ∈ links' := by
  let k : Code := ⟨[invoiceUnit, billingUnit], packages, by decide, by decide⟩
  obtain ⟨p, hp, -⟩ := Fallible.exists_of_any_toOption (p := fun _ => true)
    (x := do
      let t ← Tree.standard .default
      return (t, ← t.run ⟨architecture, k⟩ false, ← t.run ⟨architecture, code⟩ false))
    (by decide +kernel)
  obtain ⟨t, ht, hp⟩ := Fallible.bind_eq_ok_iff.mp hp
  obtain ⟨e, hrun, hp⟩ := Fallible.bind_eq_ok_iff.mp hp
  obtain ⟨e', hrun', -⟩ := Fallible.bind_eq_ok_iff.mp hp
  have hpackages : ∀ p, p ∈ k.packages ↔ p ∈ code.packages := fun _ => .rfl
  have hunits : ∀ u ∈ k.units, u ∈ code.units := by decide
  obtain ⟨_, _, _, _, hcandidates, hlinks⟩ := no_link_lost ht hpackages hunits t.listedTurns
    t.listedTurns ((Tree.run_runInTurns_pure false t.listedTurns).trans hrun)
    ((Tree.run_runInTurns_pure false t.listedTurns).trans hrun')
  exact ⟨k, t, e, e', rfl, ht, hrun, hrun', (hcandidates _ (by decide)).2.1, hlinks⟩

end StandardNode

end TraceRecovery
