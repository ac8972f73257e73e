import TraceRecovery.Proofs.Standard.Nodes
import TraceRecovery.Proofs.Tree.Refinement

/-!
# The closed form of the standard tree

Which of its children the root takes the greatest confidence of depends on the item and on the
weighted mean of names and paths (`StandardNode.closed_form`):

* an interface with methods is scored by its own scope alone. As all other nodes abstain from it, it
  has no linked units, so the two nodes that extend the weighted mean have nothing to start from;
* where the weighted mean is defined, these two repeat it, so only units outside packages can add
  to it;
* where it is not, each of the two gives a confidence of its own.
-/

namespace TraceRecovery

variable {σ : Settings} {t : Tree} {s : CandidateSpace} {e : Evaluation} {T : StandardNode → Table}
  {c : Candidate}

/-! ## Where nodes abstain -/

/-- A weighted mean of nothing is nothing, whatever the weights are. -/
theorem Aggregation.eq_unset_of_combine_weighted {weights : List Float} {cs : List Confidence}
    {x : Confidence} (hcs : ∀ c ∈ cs, c = .unset)
    (h : (Aggregation.weighted weights).combine cs = .ok x) : x = .unset := by
  have hnone : definedWithWeights cs weights = [] := by
    refine List.filterMap_eq_nil_iff.mpr fun ⟨c, w⟩ hp => ?_
    rw [hcs c (List.of_mem_zip hp).1]
    rfl
  obtain ⟨-, -, h⟩ := Fallible.bind_eq_ok_iff.mp h
  simp only [hnone, List.foldl_nil] at h
  exact (Except.ok.inj h).symm

theorem NameMatch.score_eq_unset {scope : NameScope} (p : Name.Preprocessor)
    (h : scope.admits c = false) : score scope p c = .ok .unset := by
  simp [score, h]

namespace StandardNode

namespace Tabled

variable (hT : Tabled σ s T) (hc : c ∈ s.candidates)

include hT hc

theorem interfaces_of_component (hi : c.item.hasSignatures = false) :
    (T interfaces).get c = .unset :=
  hT.get_eq hc (NameMatch.score_eq_unset _ (by simp [NameScope.admits, hi]))

section Signatures

variable (hi : c.item.hasSignatures = true)

include hi

theorem weighted_of_hasSignatures : (T weighted).get c = .unset := by
  have hnames : (T names).get c = .unset :=
    hT.get_eq hc (NameMatch.score_eq_unset _ (by simp [NameScope.admits, hi]))
  have hpaths : (T paths).get c = .unset := hT.get_eq hc (if_pos hi)
  refine Aggregation.eq_unset_of_combine_weighted ?_ (hT.score_eq weighted c hc)
  simp [reads, hnames, hpaths]

/-- No unit is linked to an interface with methods. -/
theorem linkedUnits_of_hasSignatures : (T weighted).linkedUnits c.item.id = [] := by
  refine List.eq_nil_iff_forall_not_mem.mpr fun v hv => ?_
  obtain ⟨hmem, hdefined⟩ := (Table.mem_linkedUnits_iff (hT.written weighted) hc).mp hv
  rw [hT.weighted_of_hasSignatures hmem hi] at hdefined
  cases hdefined

/-- An interface with methods is left to its own scope. -/
theorem unset_of_hasSignatures :
    ∀ n ∈ [weighted, outside, companions, heirs], (T n).get c = .unset := by
  have hweighted := hT.weighted_of_hasSignatures hc hi
  have houtside : (T outside).get c = .unset :=
    hT.get_eq hc (NameMatch.score_eq_unset _ (by simp [NameScope.admits, hi]))
  have hcompanions : (T companions).get c = .unset :=
    (hT.companions_eq hc hweighted).trans (if_pos hi)
  have hheirs : (T heirs).get c = .unset := by
    rw [hT.heirs_eq hc hweighted, Inheritance.extension, Inheritance.ancestors,
      hT.linkedUnits_of_hasSignatures hc hi]
    rfl
  simp [hweighted, houtside, hcompanions, hheirs]

end Signatures

/-! ## The root -/

theorem root_eq : (T root).get c = .bestOf [(T weighted).get c, (T outside).get c,
    (T interfaces).get c, (T companions).get c, (T heirs).get c] :=
  hT.get_eq hc rfl

theorem root_of_hasSignatures (hi : c.item.hasSignatures = true) :
    (T root).get c = (T interfaces).get c := by
  have hunset := hT.unset_of_hasSignatures hc hi
  simp only [List.forall_mem_cons, List.not_mem_nil, false_implies, implies_true, and_true]
    at hunset
  obtain ⟨hweighted, houtside, hcompanions, hheirs⟩ := hunset
  simp [hT.root_eq hc, hweighted, houtside, hcompanions, hheirs, Confidence.bestOf]

variable (hi : c.item.hasSignatures = false)

include hi

theorem isGreatest_root_of_isDefined (h : ((T weighted).get c).isDefined = true) :
    IsGreatest {(T weighted).get c, (T outside).get c} ((T root).get c) := by
  have hcompanions := hT.carried hc h companions (by simp)
  have hheirs := hT.carried hc h heirs (by simp)
  have hroot : (T root).get c = .best ((T weighted).get c) ((T outside).get c) := by
    rw [hT.root_eq hc, hT.interfaces_of_component hc hi, hcompanions, hheirs]
    simp [Confidence.bestOf, Confidence.best_of_le Confidence.le_best_left]
  exact hroot ▸ Confidence.isGreatest_best _ _

theorem isGreatest_root_of_unset (h : (T weighted).get c = .unset) :
    IsGreatest {(T outside).get c, (T companions).get c, (T heirs).get c} ((T root).get c) := by
  have hroot : (T root).get c =
      .bestOf [(T outside).get c, (T companions).get c, (T heirs).get c] := by
    rw [hT.root_eq hc, hT.interfaces_of_component hc hi, h]
    simp [Confidence.bestOf]
  have hgreatest := Confidence.isGreatest_bestOf
    (List.cons_ne_nil ((T outside).get c) [(T companions).get c, (T heirs).get c])
  simpa [hroot, Set.insert_def] using hgreatest

end Tabled

/-- What a finished run of the standard tree gives to a candidate, however the run went: the
confidence of the interface scope where the item is an interface with methods; otherwise the
greatest of the weighted mean and of that for units outside packages where the weighted mean is
defined; and otherwise the greatest of the latter and of what companions and inheritance themselves
give from the table of the weighted mean. -/
theorem closed_form (ht : Tree.standard σ = .ok t) (w : t.Turns) {ρ : Type}
    {isCancelled : StateM ρ Bool} {st : ρ}
    (hrun : ((t.runInTurns isCancelled s w).run st).1 = .ok e) :
    ∃ T : StandardNode → Table, Published e T ∧ ∀ c ∈ s.candidates,
      (c.item.hasSignatures = true →
        NameMatch.score .interface σ.preprocessor c = .ok (e.result.get c) ∧
        ∀ n ∈ [weighted, outside, companions, heirs], (T n).get c = .unset) ∧
      (c.item.hasSignatures = false → ((T weighted).get c).isDefined = true →
        (∀ n ∈ [companions, heirs], (T n).get c = (T weighted).get c) ∧
        IsGreatest {(T weighted).get c, (T outside).get c} (e.result.get c)) ∧
      (c.item.hasSignatures = false → (T weighted).get c = .unset → ∃ companion heir,
        Companion.score σ.commonWords c (.reading s (T weighted)) = .ok companion ∧
        Inheritance.score c (.reading s (T weighted)) = .ok heir ∧
        IsGreatest {(T outside).get c, companion, heir} (e.result.get c)) := by
  obtain ⟨T, hpublished, hT⟩ := exists_tabled ht (Tree.finished_of_run_eq_ok w hrun)
  refine ⟨T, hpublished, fun c hc => ?_⟩
  rw [hpublished.result_eq]
  refine ⟨fun hi => ⟨?_, hT.unset_of_hasSignatures hc hi⟩, fun hi h => ?_, fun hi h => ?_⟩
  · rw [hT.root_of_hasSignatures hc hi]
    exact hT.score_eq interfaces c hc
  · exact ⟨hT.carried hc h, hT.isGreatest_root_of_isDefined hc hi h⟩
  · exact ⟨_, _, hT.score_companions hc h, hT.score_heirs hc h,
      hT.isGreatest_root_of_unset hc hi h⟩

open OrderDesk in
/-- All three cases occur: the interface and its unit, the component and its unit, and the component
and the unit that inherits from that one. -/
theorem closed_form_orderDesk : ∃ t e T, Tree.standard .default = .ok t ∧
    t.run ⟨architecture, code⟩ false = .ok e ∧ Published e T ∧
    NameMatch.score .interface Settings.default.preprocessor ⟨billing, billingUnit⟩ =
      .ok (e.result.get ⟨billing, billingUnit⟩) ∧
    IsGreatest {(T weighted).get ⟨orders, orderUnit⟩, (T outside).get ⟨orders, orderUnit⟩}
      (e.result.get ⟨orders, orderUnit⟩) ∧
    ∃ companion heir,
      Companion.score Settings.default.commonWords ⟨orders, invoiceUnit⟩
        (.reading ⟨architecture, code⟩ (T weighted)) = .ok companion ∧
      Inheritance.score ⟨orders, invoiceUnit⟩ (.reading ⟨architecture, code⟩ (T weighted)) =
        .ok heir ∧
      IsGreatest {(T outside).get ⟨orders, invoiceUnit⟩, companion, heir}
        (e.result.get ⟨orders, invoiceUnit⟩) := by
  obtain ⟨e, he, hweighted⟩ := Fallible.exists_of_any_toOption
    (x := Tree.standard .default >>= fun t => t.run ⟨architecture, code⟩ false)
    (p := fun e => (e.board.table? weighted.id).any fun tb =>
      (tb.get ⟨orders, orderUnit⟩).isDefined && !(tb.get ⟨orders, invoiceUnit⟩).isDefined)
    (by decide +kernel)
  obtain ⟨t, ht, hrun⟩ := Fallible.bind_eq_ok_iff.mp he
  obtain ⟨T, hT, hclosed⟩ := closed_form ht t.listedTurns
    ((Tree.run_runInTurns_pure false t.listedTurns).trans hrun)
  rw [hT.table?_eq weighted, Option.any_some, Bool.and_eq_true, Bool.not_eq_true'] at hweighted
  obtain ⟨hdefined, hunset⟩ := hweighted
  obtain ⟨hinterface, -, -⟩ := hclosed ⟨billing, billingUnit⟩ (by decide)
  obtain ⟨-, hlinked, -⟩ := hclosed ⟨orders, orderUnit⟩ (by decide)
  obtain ⟨-, -, hopen⟩ := hclosed ⟨orders, invoiceUnit⟩ (by decide)
  have hunset := Confidence.eq_unset_of_isDefined_eq_false hunset
  exact ⟨t, e, T, ht, hrun, hT, (hinterface rfl).1, (hlinked rfl hdefined).2, hopen rfl hunset⟩

end StandardNode

end TraceRecovery
