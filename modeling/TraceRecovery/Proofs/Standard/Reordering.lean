import TraceRecovery.Proofs.Standard.Growth

/-!
# Models in another order

The order in which the items, the units, the types of a unit and the packages are listed
(`CandidateSpace.Reordered`) does not influence scores (`StandardNode.scores_independent_of_order`).
A space in another order is within the original one and the other way round, so no node gives less
to a candidate in either (`StandardNode.Tabled.get_le_of_within`); and as scores have no minus sign
(`StandardNode.Tabled.isPlus`), they are then equal.

That a run over the models in another order finishes at all is shown node by node
(`StandardNode.exists_table_of_within`): nodes that look only at a candidate, and the weighted mean,
give what they have given in the original order, and the others never fail.
-/

namespace TraceRecovery

/-- The same models with their parts listed in another order: the items, the units, the types of
each unit and the packages. -/
structure CandidateSpace.Reordered (s s' : CandidateSpace) : Prop where
  items_perm : s.architecture.items.Perm s'.architecture.items
  units_perm : ∃ us, s.code.units.Perm us ∧ List.Forall₂ CodeUnit.Reordered us s'.code.units
  packages_perm : s.code.packages.Perm s'.code.packages

/-- The same candidate, but for the order of the unit's types. -/
structure Candidate.Reordered (c c' : Candidate) : Prop where
  item_eq : c.item = c'.item
  unit : c.unit.Reordered c'.unit

variable {σ : Settings} {t : Tree} {s s' : CandidateSpace} {e : Evaluation}
  {T T' : StandardNode → Table} {c c' : Candidate}

/-! ## Corresponding candidates -/

namespace CandidateSpace.Reordered

theorem symm (h : s.Reordered s') : s'.Reordered s := by
  obtain ⟨us, hperm, hus⟩ := h.units_perm
  obtain ⟨us', hus', hperm'⟩ := List.perm_comp_forall₂ hperm hus
  exact ⟨h.items_perm.symm, ⟨us', hperm'.symm, (hus'.imp fun _ _ hr => hr.symm).flip⟩,
    h.packages_perm.symm⟩

/-- The candidates of one space correspond to those of the other, in some order. -/
theorem candidates_perm (h : s.Reordered s') :
    ∃ cs, s.candidates.Perm cs ∧ List.Forall₂ Candidate.Reordered cs s'.candidates := by
  obtain ⟨us, hperm, hus⟩ := h.units_perm
  refine ⟨s'.architecture.items.flatMap fun i => us.map fun u => ⟨i, u⟩,
    h.items_perm.flatMap fun i _ => hperm.map _, ?_⟩
  refine List.rel_flatMap (R := Eq) (List.forall₂_same.mpr fun _ _ => rfl) ?_
  rintro i _ rfl
  rw [List.forall₂_map_left_iff, List.forall₂_map_right_iff]
  exact hus.imp fun u u' hr => ⟨rfl, hr⟩

theorem within (h : s.Reordered s') : s.Within s' where
  item_mem_iff _ := h.items_perm.mem_iff
  package_mem_iff _ := h.packages_perm.mem_iff
  exists_unit u hu := by
    obtain ⟨us, hperm, hus⟩ := h.units_perm
    exact hus.exists_of_mem (hperm.mem_iff.mp hu)

end CandidateSpace.Reordered

/-- Candidates correspond if they are matched up by the two ids. -/
theorem Candidate.Reordered.of_ids (h : s.Reordered s') (hc : c ∈ s.candidates)
    (hc' : c' ∈ s'.candidates) (hitem : c.item.id = c'.item.id) (hunit : c.unit.id = c'.unit.id) :
    c.Reordered c' := by
  obtain ⟨hi, hu⟩ := CandidateSpace.mem_candidates.mp hc
  obtain ⟨hi', hu'⟩ := CandidateSpace.mem_candidates.mp hc'
  obtain ⟨v, hv, hr⟩ := h.within.exists_unit _ hu
  obtain rfl := s'.code.eq_of_id_eq hv hu' (hr.id_eq.symm.trans hunit)
  exact ⟨s'.architecture.eq_of_id_eq ((h.within.item_mem_iff _).mp hi) hi' hitem, hr⟩

namespace StandardNode

/-! ## No score has a minus sign -/

namespace Tabled

variable (hT : Tabled σ s T) (hc : c ∈ s.candidates)

include hT hc

theorem isPlus_weighted : ((T weighted).get c).IsPlus :=
  Aggregation.isPlus_of_combine_weighted (hT.score_eq weighted c hc)

theorem isPlus_linkedUnits :
    ∀ v ∈ (T weighted).linkedUnits c.item.id, ((T weighted).get ⟨c.item, v⟩).IsPlus := by
  intro v hv
  exact hT.isPlus_weighted ((Table.mem_linkedUnits_iff (hT.written weighted) hc).mp hv).1

theorem isPlus_extended : ∀ n ∈ [companions, heirs], ((T n).get c).IsPlus := by
  intro n hn
  rcases Confidence.isDefined_or_eq_unset ((T weighted).get c) with hdefined | hbase
  · rw [hT.carried hc hdefined n hn]
    exact hT.isPlus_weighted hc
  · simp only [List.mem_cons, List.not_mem_nil, or_false] at hn
    rcases hn with rfl | rfl
    · rw [hT.companions_eq hc hbase]
      exact Companion.isPlus_extension _ (hT.isPlus_linkedUnits hc)
    · rw [hT.heirs_eq hc hbase]
      exact Inheritance.isPlus_extension (hT.isPlus_linkedUnits hc)

theorem isPlus (n : StandardNode) : ((T n).get c).IsPlus := by
  induction n using reads_induction with
  | step n ih =>
    have hscore := hT.score_eq n c hc
    cases n
    case names => exact NameMatch.isPlus_of_score_eq_ok hscore
    case paths => exact PathMatch.isPlus_of_score_eq_ok hscore
    case outside => exact NameMatch.isPlus_of_score_eq_ok hscore
    case interfaces => exact NameMatch.isPlus_of_score_eq_ok hscore
    case weighted => exact hT.isPlus_weighted hc
    case companions => exact hT.isPlus_extended hc _ (by simp)
    case heirs => exact hT.isPlus_extended hc _ (by simp)
    case root =>
      rw [hT.get_eq hc rfl]
      refine Confidence.isPlus_bestOf fun x hx => ?_
      obtain ⟨m, hm, rfl⟩ := List.mem_map.mp hx
      exact ih m hm

end Tabled

/-! ## Equal scores -/

/-- Corresponding candidates get the same from each node. -/
theorem Tabled.get_eq_of_reordered (hT : Tabled σ s T) (hT' : Tabled σ s' T') (h : s.Reordered s')
    (hc : c ∈ s.candidates) (hc' : c' ∈ s'.candidates) (hr : c.Reordered c') (n : StandardNode) :
    (T n).get c = (T' n).get c' := by
  obtain ⟨i, u⟩ := c
  obtain ⟨i', u'⟩ := c'
  obtain ⟨rfl, hr⟩ := hr
  exact Confidence.eq_of_le_of_le (hT.isPlus hc n) (hT'.isPlus hc' n)
    (hT.get_le_of_within hT' h.within hc hc' hr n)
    (hT'.get_le_of_within hT h.symm.within hc' hc hr.symm n)

/-- A node that extends a base can fail only where the base abstains. -/
theorem exists_extended_eq_ok {base : Table} {own : Except TraceError Confidence}
    (h : base.get c = .unset → ∃ x, own = .ok x) : ∃ x, extended base c own = .ok x := by
  rcases Confidence.isDefined_or_eq_unset (base.get c) with hdefined | hbase
  · exact ⟨_, if_pos hdefined⟩
  · obtain ⟨x, hx⟩ := h hbase
    exact ⟨x, (extended_eq_own hbase own).trans hx⟩

/-- If each node has given something to all candidates of a space, so it does over a space that has
the same parts. -/
theorem exists_table_of_within (ht : Tree.standard σ = .ok t) (hT : Tabled σ s T)
    (hw : s.Within s') (hw' : s'.Within s) (n : StandardNode) :
    ∃ tb, t.table s' n.id = .ok tb := by
  induction n using reads_induction with
  | step n ih =>
    have : Nonempty Table := ⟨T n⟩
    choose! T' hT' using ih
    refine Valuation.exists_table_eq_ok_iff.mpr fun ⟨i, u'⟩ hc' => ?_
    obtain ⟨u, hc, hr⟩ := hw'.exists_candidate hc'
    show ∃ x, t.value s' n.id ⟨i, u'⟩ = .ok x
    rw [value_eq_score ht hT' hc']
    have hlocal := score_of_within hw hT T' hc hr.symm
    cases n
    case weighted =>
      -- Names and paths read no table, so their own tables follow from the candidates alone.
      refine ⟨_, (score_weighted_congr fun m hm => ?_).symm.trans (hT.score_eq weighted _ hc)⟩
      have hm' : m ∈ [names, paths, outside, interfaces] ∧ m.reads = [] := by
        revert hm
        cases m <;> decide
      have hscore := score_eq_get ht (T := T') (by simp [hm'.2]) (hT' m hm) hc'
      exact Except.ok.inj ((hlocal m hm'.1).symm.trans hscore)
    case companions =>
      exact exists_extended_eq_ok fun hbase => ⟨_, Companion.score_eq_ok _ hbase⟩
    case heirs =>
      have hwritten := Valuation.written_table (hT' weighted (by simp [reads]))
      exact exists_extended_eq_ok fun hbase => ⟨_, Inheritance.score_eq_ok hwritten hc' hbase⟩
    case root => exact ⟨_, rfl⟩
    all_goals exact ⟨_, hlocal _ (by simp)⟩

/-! ## Equal links -/

theorem link?_eq_of_reordered {tb tb' : Table} (hr : c.Reordered c') (hget : tb.get c = tb'.get c')
    (θ : Threshold) (source : String) : θ.link? tb source c = θ.link? tb' source c' := by
  simp only [Threshold.link?, hget, hr.item_eq, hr.unit.id_eq, hr.unit.name_eq]

theorem filterMap_eq_of_forall₂ {α β γ : Type} {R : α → β → Prop} {f : α → Option γ}
    {g : β → Option γ} {l : List α} {l' : List β} (h : List.Forall₂ R l l')
    (hfg : ∀ a ∈ l, ∀ b ∈ l', R a b → f a = g b) : l.filterMap f = l'.filterMap g := by
  induction h with
  | nil => rfl
  | @cons a b l l' hab _ ih =>
    have hhead := hfg a List.mem_cons_self b List.mem_cons_self hab
    have htail := ih fun x hx y hy =>
      hfg x (List.mem_cons_of_mem a hx) y (List.mem_cons_of_mem b hy)
    rw [List.filterMap_cons, List.filterMap_cons, hhead, htail]

theorem Tabled.links_perm (hT : Tabled σ s T) (hT' : Tabled σ s' T') (h : s.Reordered s')
    (θ : Threshold) (source : String) :
    (s.candidates.filterMap (θ.link? (T root) source)).Perm
      (s'.candidates.filterMap (θ.link? (T' root) source)) := by
  obtain ⟨cs, hperm, hcs⟩ := h.candidates_perm
  have hlinks : cs.filterMap (θ.link? (T root) source) =
      s'.candidates.filterMap (θ.link? (T' root) source) :=
    filterMap_eq_of_forall₂ hcs fun c hc c' hc' hr =>
      link?_eq_of_reordered hr
        (hT.get_eq_of_reordered hT' h (hperm.mem_iff.mpr hc) hc' hr root) θ source
  exact hlinks ▸ hperm.filterMap _

/-- If a run of the standard tree finishes, so does every run over the same models with their parts
listed in another order, unless it is cancelled. Each node gives equal confidences to candidates
that are matched up by the ids of their items and units, as all of them can be, and the links at any
threshold are the same up to their order. -/
theorem scores_independent_of_order (ht : Tree.standard σ = .ok t) (h : s.Reordered s')
    (w w' : t.Turns) {ρ : Type} {isCancelled : StateM ρ Bool} {st : ρ}
    (hrun : ((t.runInTurns isCancelled s w).run st).1 = .ok e) :
    ∃ e', Id.run (t.runInTurns (pure false) s' w') = .ok e' ∧
      ∃ T T' : StandardNode → Table, Published e T ∧ Published e' T' ∧
        (∀ c ∈ s.candidates, ∃ c' ∈ s'.candidates,
          c.item.id = c'.item.id ∧ c.unit.id = c'.unit.id) ∧
        (∀ c ∈ s.candidates, ∀ c' ∈ s'.candidates,
          c.item.id = c'.item.id → c.unit.id = c'.unit.id →
            ∀ n : StandardNode, (T n).get c = (T' n).get c') ∧
        ∀ θ : Threshold, ∃ links links', e.links θ = .ok links ∧ e'.links θ = .ok links' ∧
          links.Perm links' := by
  have hfinished := Tree.finished_of_run_eq_ok w hrun
  obtain ⟨T, hpublished, hT⟩ := exists_tabled ht hfinished
  have htables : ∀ id, t.Needed id → ∃ tb, t.table s' id = .ok tb := by
    intro id hid
    have hlt : id < (draft σ).nodes.length := (Tree.standard_eq_ok ht).2.2.1 ▸ hid.lt
    obtain ⟨n, rfl⟩ := exists_eq_id hlt
    exact exists_table_of_within ht hT h.within h.symm.within n
  obtain ⟨e', hrun', hfinished'⟩ := Tree.exists_run_eq_ok w' htables
  obtain ⟨T', hpublished', hT'⟩ := exists_tabled ht hfinished'
  refine ⟨e', hrun', T, T', hpublished, hpublished', fun c hc => ?_, ?_, fun θ => ?_⟩
  · obtain ⟨cs, hperm, hcs⟩ := h.candidates_perm
    obtain ⟨c', hc', hr⟩ := hcs.exists_of_mem (hperm.mem_iff.mp hc)
    exact ⟨c', hc', congrArg Item.id hr.item_eq, hr.unit.id_eq⟩
  · intro c hc c' hc' hitem hunit
    exact hT.get_eq_of_reordered hT' h hc hc' (.of_ids h hc hc' hitem hunit)
  · exact ⟨_, _, hT.links_eq hpublished hfinished θ, hT'.links_eq hpublished' hfinished' θ,
      hT.links_perm hT' h θ t.name⟩

open OrderDesk in
/-- All lists are reversed, that of a unit's types included. -/
theorem scores_independent_of_order_orderDesk : ∃ (s' : CandidateSpace) (t : Tree)
    (e e' : Evaluation),
    s'.architecture.items = [billing, orders] ∧
    s'.code.units = [billingUnit, invoiceUnit,
      { orderUnit with dataTypes := orderUnit.dataTypes.reverse }] ∧
    s'.code.packages = packages.reverse ∧ Tree.standard .default = .ok t ∧
    t.run ⟨architecture, code⟩ false = .ok e ∧ t.run s' false = .ok e' ∧
    e.result.get ⟨orders, orderUnit⟩ =
      e'.result.get ⟨orders, { orderUnit with dataTypes := orderUnit.dataTypes.reverse }⟩ ∧
    ∀ θ : Threshold, ∃ links links', e.links θ = .ok links ∧ e'.links θ = .ok links' ∧
      links.Perm links' := by
  let reversed : CodeUnit := { orderUnit with dataTypes := orderUnit.dataTypes.reverse }
  let s' : CandidateSpace :=
    ⟨⟨[billing, orders], by decide⟩,
      ⟨[billingUnit, invoiceUnit, reversed], packages.reverse, by decide, by decide⟩⟩
  have hr : CandidateSpace.Reordered ⟨architecture, code⟩ s' := by
    refine ⟨.swap _ _ _, ⟨[billingUnit, invoiceUnit, orderUnit], by decide, ?_⟩, .swap _ _ _⟩
    exact .cons (.refl _) (.cons (.refl _) (.cons ⟨rfl, rfl, rfl, rfl, .swap _ _ _⟩ .nil))
  obtain ⟨e, he, -⟩ := Fallible.exists_of_any_toOption (p := fun _ => true)
    (x := Tree.standard .default >>= fun t => t.run ⟨architecture, code⟩ false)
    (by decide +kernel)
  obtain ⟨t, ht, hrun⟩ := Fallible.bind_eq_ok_iff.mp he
  obtain ⟨e', hrun', T, T', hT, hT', -, hscores, hlinks⟩ := scores_independent_of_order ht hr
    t.listedTurns t.listedTurns ((Tree.run_runInTurns_pure false t.listedTurns).trans hrun)
  refine ⟨s', t, e, e', rfl, rfl, rfl, ht, hrun, hrun', ?_, hlinks⟩
  rw [hT.result_eq, hT'.result_eq]
  exact hscores ⟨orders, orderUnit⟩ (by decide) ⟨orders, reversed⟩ (by decide) rfl rfl root

end StandardNode

end TraceRecovery
