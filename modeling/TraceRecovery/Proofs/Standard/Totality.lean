import TraceRecovery.Proofs.Confidence.Mean
import TraceRecovery.Proofs.Confidence.Range
import TraceRecovery.Proofs.Standard.Nodes

/-!
# Runs that finish

Settings in range are all that it takes to build the standard tree, and then there is a single way in
which a run that is not cancelled can fail: the weighted mean of names and paths may be the quotient
of two infinities (`StandardNode.Overflows`). No other node fails, whatever the models are, and
links can be taken from every run that has finished (`StandardNode.finishes_iff_no_overflow`).

The mean overflows only for weights whose sum is infinite. Settings in range can have such weights
(`StandardNode.weights_in_range_abort_run`).
-/

namespace TraceRecovery

theorem Settings.exists_threshold {σ : Settings} (h : σ.validate = .ok ()) :
    ∃ θ, Threshold.ofValue σ.threshold = .ok θ := by
  unfold validate at h
  split at h
  · cases h
  · rename_i hrange
    exact ⟨_, dif_pos (not_not.mp hrange)⟩

namespace StandardNode

variable {σ : Settings} {t : Tree} {s : CandidateSpace} {T : StandardNode → Table} {c : Candidate}
  {n : StandardNode}

variable (σ s c) in
/-- Names and paths give confidences to the candidate whose weighted mean is the quotient of two
infinities. -/
def Overflows : Prop :=
  ∃ x y, NameMatch.score .component σ.preprocessor c = .ok x ∧
    PathMatch.score c (.ofModels s.architecture s.code) = .ok y ∧
    Aggregation.Overflows [x, y] σ.weights

theorem Overflows.isInf_add (hσ : σ.validate = .ok ()) (h : Overflows σ s c) :
    ∃ v w, σ.weights = [v, w] ∧ (v + w).isInf = true := by
  obtain ⟨hlen, hweights⟩ := Settings.weights_of_validate hσ
  obtain ⟨v, w, hvw⟩ := List.length_eq_two.mp hlen
  obtain ⟨x, y, -, -, hsums⟩ := h
  rw [hvw] at hweights hsums
  have hfinite := fun u hu => (hweights u hu).1
  exact ⟨v, w, hvw, (hsums.isInf_add (hfinite v (by simp)) (hfinite w (by simp))).2.2⟩

theorem exists_combine_iff (hσ : σ.validate = .ok ()) {x y : Confidence}
    (hx : NameMatch.score .component σ.preprocessor c = .ok x)
    (hy : PathMatch.score c (.ofModels s.architecture s.code) = .ok y) :
    (∃ v, (Aggregation.weighted σ.weights).combine [x, y] = .ok v) ↔ ¬ Overflows σ s c := by
  have hvalid : (Aggregation.weighted σ.weights).validate [x, y].length = .ok () :=
    Aggregation.validate_eq_ok_iff.mpr (admissible_node hσ weighted)
  rw [Aggregation.exists_combine_weighted_iff hvalid]
  refine not_congr ⟨fun h => ⟨x, y, hx, hy, h⟩, ?_⟩
  rintro ⟨x', y', hx', hy', h⟩
  obtain rfl := Except.ok.inj (hx.symm.trans hx')
  obtain rfl := Except.ok.inj (hy.symm.trans hy')
  exact h

/-- From the tables of the nodes that it reads, a node gives something to a candidate, unless the
weighted mean overflows. -/
theorem exists_score_eq_ok (ht : Tree.standard σ = .ok t)
    (hreads : ∀ m ∈ n.reads, t.table s m.id = .ok (T m)) (hc : c ∈ s.candidates)
    (hfit : c.NamesFit) (hno : ¬ Overflows σ s c) : ∃ x, n.score σ s T c = .ok x := by
  have hσ := (Tree.standard_eq_ok ht).1
  have hextended : ∀ own : Except TraceError Confidence,
      ((T weighted).get c = .unset → ∃ x, own = .ok x) →
      ∃ x, extended (T weighted) c own = .ok x := by
    intro own hown
    rcases Confidence.isDefined_or_eq_unset ((T weighted).get c) with hdefined | hunset
    · exact ⟨_, if_pos hdefined⟩
    · rw [extended_eq_own hunset]
      exact hown hunset
  cases n with
  | names => exact NameMatch.exists_score_eq_ok hfit
  | paths => exact PathMatch.exists_score_eq_ok hfit
  | weighted =>
    have hx : names.score σ s T c = .ok ((T names).get c) :=
      score_eq_get ht (by simp [reads]) (hreads names (by simp [reads])) hc
    have hy : paths.score σ s T c = .ok ((T paths).get c) :=
      score_eq_get ht (by simp [reads]) (hreads paths (by simp [reads])) hc
    exact (exists_combine_iff hσ hx hy).mpr hno
  | outside => exact NameMatch.exists_score_eq_ok hfit
  | interfaces => exact NameMatch.exists_score_eq_ok hfit
  | companions => exact hextended _ fun hunset => ⟨_, Companion.score_eq_ok _ hunset⟩
  | heirs =>
    have hwritten := Valuation.written_table (hreads weighted (by simp [reads]))
    exact hextended _ fun hunset => ⟨_, Inheritance.score_eq_ok hwritten hc hunset⟩
  | root => exact ⟨_, rfl⟩

theorem exists_eq_id_of_needed {id : NodeId} (ht : Tree.standard σ = .ok t) (h : t.Needed id) :
    ∃ n : StandardNode, id = n.id := by
  obtain ⟨n, hn⟩ := h.exists_node
  rw [(Tree.standard_eq_ok ht).2.2.1] at hn
  exact exists_eq_id (List.getElem?_eq_some_iff.mp hn).1

/-- If the weighted mean never overflows, the recursion gives a table to every node. -/
theorem exists_table (ht : Tree.standard σ = .ok t) (hfit : ∀ c ∈ s.candidates, c.NamesFit)
    (hno : ∀ c ∈ s.candidates, ¬ Overflows σ s c) (n : StandardNode) :
    ∃ tb, t.table s n.id = .ok tb := by
  induction n using reads_induction with
  | step n ih =>
    have hnonempty : Nonempty Table := ⟨.empty ""⟩
    choose! T hT using ih
    refine Valuation.exists_table_eq_ok_iff.mpr fun c hc => ?_
    show ∃ x, t.value s n.id c = .ok x
    rw [value_eq_score ht hT hc]
    exact exists_score_eq_ok ht hT hc (hfit c hc) (hno c hc)

/-- The weighted mean has overflowed for no candidate of a finished run. -/
theorem not_overflows_of_finished {e : Evaluation} (ht : Tree.standard σ = .ok t)
    (he : t.Finished s e) : ∀ c ∈ s.candidates, ¬ Overflows σ s c := by
  intro c hc
  obtain ⟨T, -, hT⟩ := exists_tabled ht he
  have hx : names.score σ s T c = .ok ((T names).get c) := hT.score_eq names c hc
  have hy : paths.score σ s T c = .ok ((T paths).get c) := hT.score_eq paths c hc
  exact (exists_combine_iff (Tree.standard_eq_ok ht).1 hx hy).mp ⟨_, hT.score_eq weighted c hc⟩

/-- Under settings in range, the standard tree can be built and their threshold is one. Whatever the
models are, a run that is not cancelled finishes unless the weighted mean of names and paths
overflows for some candidate, which takes weights with an infinite sum. Links can be taken from
every finished run. -/
theorem finishes_iff_no_overflow (hσ : σ.validate = .ok ())
    (hfit : ∀ c ∈ s.candidates, c.NamesFit) :
    ∃ t θ, Tree.standard σ = .ok t ∧ Threshold.ofValue σ.threshold = .ok θ ∧
      (∀ w : t.Turns, (∃ e, Id.run (t.runInTurns (pure false) s w) = .ok e) ↔
        ∀ c ∈ s.candidates, ¬ Overflows σ s c) ∧
      (∀ w : t.Turns, ∀ e, Id.run (t.runInTurns (pure false) s w) = .ok e →
        ∃ links, e.links θ = .ok links) ∧
      ∀ c, Overflows σ s c → ∃ v w, σ.weights = [v, w] ∧ (v + w).isInf = true := by
  obtain ⟨t, ht⟩ := Tree.exists_standard_iff.mpr hσ
  obtain ⟨θ, hθ⟩ := Settings.exists_threshold hσ
  have hfinished : ∀ w : t.Turns, ∀ e, Id.run (t.runInTurns (pure false) s w) = .ok e →
      t.Finished s e := fun w e he =>
    Tree.finished_of_run_eq_ok w ((Tree.run_runInTurns_pure false w).trans he)
  refine ⟨t, θ, ht, hθ, fun w => ⟨?_, fun hno => ?_⟩, fun w e he => ?_, fun c h => h.isInf_add hσ⟩
  · rintro ⟨e, he⟩
    exact not_overflows_of_finished ht (hfinished w e he)
  · have htables : ∀ id, t.Needed id → ∃ tb, t.table s id = .ok tb := by
      intro id hid
      obtain ⟨n, rfl⟩ := exists_eq_id_of_needed ht hid
      exact exists_table ht hfit hno n
    obtain ⟨e, he, -⟩ := Tree.exists_run_eq_ok w htables
    exact ⟨e, he⟩
  · obtain ⟨T, hp, hT⟩ := exists_tabled ht (hfinished w e he)
    exact ⟨_, hT.links_eq hp (hfinished w e he) θ⟩

open OrderDesk in
/-- The sum of the default weights is finite, so every run finishes. -/
theorem finishes_iff_no_overflow_orderDesk : ∃ t θ, Tree.standard .default = .ok t ∧
    Threshold.ofValue Settings.default.threshold = .ok θ ∧
    ∀ w : t.Turns, ∃ e links,
      Id.run (t.runInTurns (pure false) ⟨architecture, code⟩ w) = .ok e ∧
        e.links θ = .ok links := by
  have hitems : ∀ i ∈ architecture.items, i.name.length < 2 ^ 64 := by decide +kernel
  have hunits : ∀ u ∈ code.units, ∀ name ∈ u.codeNames, name.name.length < 2 ^ 64 := by
    decide +kernel
  have hfit : ∀ c ∈ (⟨architecture, code⟩ : CandidateSpace).candidates, c.NamesFit := fun c hc =>
    ⟨hitems _ (CandidateSpace.mem_candidates.mp hc).1,
      hunits _ (CandidateSpace.mem_candidates.mp hc).2⟩
  obtain ⟨t, θ, ht, hθ, hfinishes, hlinks, hsum⟩ :=
    finishes_iff_no_overflow Settings.validate_default hfit
  refine ⟨t, θ, ht, hθ, fun w => ?_⟩
  have hno : ∀ c, ¬ Overflows .default ⟨architecture, code⟩ c := by
    intro c h
    obtain ⟨v, w, hweights, hinf⟩ := hsum c h
    have hdefault : Settings.default.weights = [0.7, 0.3] := rfl
    obtain ⟨rfl, rfl⟩ : 0.7 = v ∧ 0.3 = w := by simpa [hdefault] using hweights
    exact absurd hinf (by decide)
  obtain ⟨e, he⟩ := (hfinishes w).mpr fun c _ => hno c
  obtain ⟨links, hl⟩ := hlinks w e he
  exact ⟨e, links, he, hl⟩

/-- The default settings with weights that are finite and have an infinite sum. -/
def overflowing : Settings := { Settings.default with weights := [1e308, 1e308] }

/-- These settings are in range and set no deadline, but the run over a single candidate fails: its
confidence would be no number. -/
theorem weights_in_range_abort_run :
    overflowing.validate = .ok () ∧ overflowing.deadline = none ∧
      ∃ t v, Tree.standard overflowing = .ok t ∧
        t.run OrderDesk.single false = .error (.invalidArgument (.confidenceOutOfRange v)) ∧
        v.isNaN = true := by
  obtain ⟨t, ht, hrun⟩ := Fallible.exists_of_any_toOption (x := Tree.standard overflowing)
    (p := fun t => match t.run OrderDesk.single false with
      | .error (.invalidArgument (.confidenceOutOfRange v)) => v.isNaN
      | _ => false)
    (by decide +kernel)
  refine ⟨(Tree.standard_eq_ok ht).1, rfl, t, ?_⟩
  split at hrun
  · exact ⟨_, ht, ‹_›, hrun⟩
  · cases hrun

end StandardNode

end TraceRecovery
