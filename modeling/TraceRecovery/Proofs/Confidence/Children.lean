import TraceRecovery.Proofs.Confidence.Mean

/-!
# Children with an influence

Only some children of an inner node have an influence on what it makes of them: those that make a
statement, and do so with a weight above zero (`Aggregation.influences`). The confidence is a function
of their values and weights (`Aggregation.combineChildren_eq`), so other children can be removed, and
there is none exactly if nothing is left (`Aggregation.only_influential_children_count`).
-/

namespace TraceRecovery

namespace Aggregation

/-! ## Children and their weights -/

/-- The weights of some children. Unless the mean is weighted they all have the weight one. -/
def weightsFor : Aggregation → ℕ → List Float
  | weighted ws, _ => ws
  | _, n => List.replicate n 1

/-- The children with their weights. -/
def children (a : Aggregation) (cs : List Confidence) : List (Confidence × Float) :=
  cs.zip (a.weightsFor cs.length)

/-- The same aggregation with other weights, if it has weights. -/
def withWeights : Aggregation → List Float → Aggregation
  | weighted _, ws => weighted ws
  | a, _ => a

/-- The combination of some children with the weights that they have. -/
def combineChildren (a : Aggregation) (es : List (Confidence × Float)) :
    Except TraceError Confidence :=
  (a.withWeights (es.map Prod.snd)).combine (es.map Prod.fst)

/-- Whether a child can have an influence: it makes a statement, and its weight is not zero. -/
def influences (e : Confidence × Float) : Bool := e.1.isDefined && decide (0 < e.2)

/-- The values and the weights of the children with an influence. -/
def statements (es : List (Confidence × Float)) : List (Float × Float) :=
  (es.filter influences).filterMap fun (c, w) => c.value?.map fun v => (v, w)

variable {a : Aggregation} {cs ds : List Confidence} {es es' : List (Confidence × Float)}
  {x : Confidence}

/-- Children whose weights the aggregation accepts. -/
structure Accepts (a : Aggregation) (es : List (Confidence × Float)) : Prop where
  ne_nil : es ≠ []
  isAmount : ∀ e ∈ es, Double.IsAmount e.2
  unweighted : (∀ ws, a ≠ weighted ws) → ∀ e ∈ es, 0 < e.2

theorem length_weightsFor (h : a.validate cs.length = .ok ()) :
    (a.weightsFor cs.length).length = cs.length := by
  cases a with
  | weighted ws => exact ((validate_eq_ok_iff.mp h).2 ws rfl).1
  | _ => exact List.length_replicate

theorem accepts_children (h : a.validate cs.length = .ok ()) : a.Accepts (a.children cs) := by
  obtain ⟨hpos, hweights⟩ := validate_eq_ok_iff.mp h
  have hlength := length_weightsFor h
  refine ⟨?_, ?_, ?_⟩
  · rw [children, ne_eq, ← List.length_eq_zero_iff, List.length_zip, hlength]
    omega
  · intro e he
    have hw := (List.of_mem_zip he).2
    cases a with
    | weighted ws =>
      obtain ⟨hfinite, hnonneg⟩ := (hweights ws rfl).2 _ hw
      exact ⟨hfinite, hnonneg⟩
    | _ =>
      rw [List.eq_of_mem_replicate hw]
      exact ⟨rfl, by decide⟩
  · intro hunweighted e he
    have hw := (List.of_mem_zip he).2
    cases a with
    | weighted ws => exact absurd rfl (hunweighted ws)
    | _ =>
      rw [List.eq_of_mem_replicate hw]
      decide

theorem combineChildren_children (h : a.validate cs.length = .ok ()) :
    a.combineChildren (a.children cs) = a.combine cs := by
  have hlength := length_weightsFor h
  rw [combineChildren, children, List.map_fst_zip hlength.ge, List.map_snd_zip hlength.le]
  cases a <;> rfl

theorem Accepts.sublist (h : a.Accepts es) (hs : es'.Sublist es) (hne : es' ≠ []) :
    a.Accepts es' :=
  ⟨hne, fun e he => h.isAmount e (hs.subset he), fun hu e he => h.unweighted hu e (hs.subset he)⟩

/-! ## Statements -/

theorem definedWithWeights_eq (es : List (Confidence × Float)) :
    definedWithWeights (es.map Prod.fst) (es.map Prod.snd) =
      es.filterMap fun (c, w) => c.value?.map fun v => (v, w) := by
  have hzip : (es.map Prod.fst).zip (es.map Prod.snd) = es := by
    rw [List.zip_map', List.map_id']
  rw [definedWithWeights, hzip]

theorem statements_eq (es : List (Confidence × Float)) :
    statements es = (definedWithWeights (es.map Prod.fst) (es.map Prod.snd)).filter
      fun e => decide (0 < e.2) := by
  rw [definedWithWeights_eq, statements, List.filterMap_filter, List.filter_filterMap]
  refine List.filterMap_congr fun e _ => ?_
  obtain ⟨c, w⟩ := e
  cases c with
  | unset => rfl
  | of v hv => by_cases hw : 0 < w <;>
      simp [influences, Confidence.isDefined, Confidence.value?, hw, Option.filter_some]

theorem map_fst_statements (h : ∀ e ∈ es, 0 < e.2) :
    (statements es).map Prod.fst = defined (es.map Prod.fst) := by
  rw [statements, List.filterMap_filter, List.map_filterMap, defined, List.filterMap_map]
  refine List.filterMap_congr fun e he => ?_
  have hw := h e he
  obtain ⟨c, w⟩ := e
  cases c with
  | unset => rfl
  | of v hv => simp [influences, Confidence.isDefined, Confidence.value?, hw]

/-- A confidence with a weight above zero. -/
structure IsStatement (e : Float × Float) : Prop where
  inRange : 0 ≤ e.1 ∧ e.1 ≤ 1
  isAmount : Double.IsAmount e.2
  pos : 0 < e.2

/-- A statement is that of a child. -/
theorem exists_of_mem_statements {e : Float × Float} (he : e ∈ statements es) :
    ∃ h, (Confidence.of e.1 h, e.2) ∈ es ∧ 0 < e.2 := by
  obtain ⟨⟨c, w⟩, hmem, he⟩ := List.mem_filterMap.mp he
  obtain ⟨hmem, hinfluences⟩ := List.mem_filter.mp hmem
  cases c with
  | unset => cases he
  | of v hv =>
    rw [← Option.some.inj he]
    exact ⟨hv, hmem, by simpa [influences, Confidence.isDefined] using hinfluences⟩

theorem isStatement_of_mem (h : a.Accepts es) {e : Float × Float} (he : e ∈ statements es) :
    IsStatement e := by
  obtain ⟨hv, hmem, hpos⟩ := exists_of_mem_statements he
  exact ⟨hv, h.isAmount _ hmem, hpos⟩

theorem statements_eq_nil_iff : statements es = [] ↔ ∀ e ∈ es, influences e = false := by
  rw [statements, List.filterMap_eq_nil_iff]
  refine ⟨fun h e he => Bool.eq_false_iff.mpr fun hinfluences => ?_, fun h e he => ?_⟩
  · have hnone := h e (List.mem_filter.mpr ⟨he, hinfluences⟩)
    obtain ⟨c, w⟩ := e
    cases c with
    | unset => simp [influences, Confidence.isDefined] at hinfluences
    | of v hv => cases hnone
  · obtain ⟨he, hinfluences⟩ := List.mem_filter.mp he
    exact absurd hinfluences (Bool.eq_false_iff.mp (h e he))

/-! ## What the aggregation makes of them -/

/-- What the aggregation makes of the values of some children and of their weights. -/
def combineStatements (a : Aggregation) (vws : List (Float × Float)) :
    Except TraceError Confidence :=
  if vws.isEmpty then .ok .unset
  else match a with
    | average =>
      Confidence.ofValue (clamp (Double.sum (vws.map Prod.fst) / Float.ofNat vws.length))
    | min => confidence (extreme (fun x kept => x < kept) (vws.map Prod.fst))
    | max => confidence (extreme (fun x kept => kept < x) (vws.map Prod.fst))
    | weighted _ =>
      Confidence.ofValue (clamp
        (Double.sum (vws.map fun e => e.1 * e.2) / Double.sum (vws.map Prod.snd)))

/-- Without a child that has an influence there is no total weight, and only then. -/
theorem sum_weights_beq_zero {vws : List (Float × Float)} (h : ∀ e ∈ vws, IsStatement e) :
    (Double.sum (vws.map Prod.snd) == 0) = vws.isEmpty := by
  cases vws with
  | nil => rfl
  | cons e rest =>
    have hamounts : ∀ w ∈ (e :: rest).map Prod.snd, Double.IsAmount w :=
      List.forall_mem_map.mpr fun e he => (h e he).isAmount
    have hpos := Double.pos_sum hamounts List.mem_cons_self (h e List.mem_cons_self).pos
    refine Bool.eq_false_iff.mpr fun hzero => ?_
    exact absurd (Double.lt_iff.mp hpos).2.2 (Double.beq_iff.mp hzero).2.2.le.not_gt

/-- Children of weight zero are among the summands of both sums, but add nothing to them. -/
theorem sums_eq (h : a.Accepts es) :
    weightedSum (es.map Prod.fst) (es.map Prod.snd) =
        Double.sum ((statements es).map fun e => e.1 * e.2) ∧
      totalWeight (es.map Prod.fst) (es.map Prod.snd) =
        Double.sum ((statements es).map Prod.snd) := by
  have hweights : ∀ w ∈ es.map Prod.snd, w.isFinite = true ∧ 0 ≤ w :=
    List.forall_mem_map.mpr fun e he => ⟨(h.isAmount e he).isFinite, (h.isAmount e he).nonneg⟩
  have hamounts : ∀ e ∈ definedWithWeights (es.map Prod.fst) (es.map Prod.snd),
      Double.IsAmount e.1 ∧ Double.IsAmount e.2 ∧ Double.IsAmount (e.1 * e.2) :=
    fun e he => isAmount_of_mem_definedWithWeights hweights he
  have hzero : ∀ e ∈ definedWithWeights (es.map Prod.fst) (es.map Prod.snd),
      decide (0 < e.2) = false → ¬ 0 < e.2 := fun e _ he => of_decide_eq_false he
  have hsum := Double.sum_filter (fun e he => (hamounts e he).2.2) fun e he hp =>
    (Double.mul_not_pos (hamounts e he).1 (hamounts e he).2.1 (hzero e he hp)).2
  have htotal := Double.sum_filter (fun e he => (hamounts e he).2.1) hzero
  rw [weightedSum_eq, totalWeight_eq, statements_eq]
  exact ⟨hsum.symm, htotal.symm⟩

/-- The outcome only depends on the statements of the children. -/
theorem combineChildren_eq (h : a.Accepts es) :
    a.combineChildren es = a.combineStatements (statements es) := by
  have hunweighted : (∀ ws, a ≠ weighted ws) →
      defined (es.map Prod.fst) = (statements es).map Prod.fst :=
    fun hu => (map_fst_statements (h.unweighted hu)).symm
  cases a with
  | average =>
    show average.combine _ = _
    simp only [combine, combineStatements, hunweighted (by simp), List.isEmpty_map, List.length_map]
    rfl
  | min =>
    show min.combine _ = _
    simp only [combine, combineStatements, hunweighted (by simp)]
    cases statements es <;> rfl
  | max =>
    show max.combine _ = _
    simp only [combine, combineStatements, hunweighted (by simp)]
    cases statements es <;> rfl
  | weighted ws =>
    have hvalid : (weighted (es.map Prod.snd)).validate (es.map Prod.fst).length = .ok () := by
      refine validate_eq_ok_iff.mpr ⟨?_, ?_⟩
      · simpa [List.length_pos_iff] using h.ne_nil
      · rintro _ ⟨⟩
        refine ⟨by simp, List.forall_mem_map.mpr fun e he => ?_⟩
        exact ⟨(h.isAmount e he).isFinite, (h.isAmount e he).nonneg⟩
    show (weighted _).combine _ = _
    rw [combine_weighted_eq hvalid, (sums_eq h).1, (sums_eq h).2,
      sum_weights_beq_zero fun e he => isStatement_of_mem h he]
    rfl

/-- The aggregation abstains exactly if no child has an influence. -/
theorem eq_unset_iff (h : a.Accepts es) (hx : a.combineChildren es = .ok x) :
    x = .unset ↔ statements es = [] := by
  have hvalue : ∀ {v}, Confidence.ofValue v = .ok x → x ≠ .unset := fun hv hx => by
    obtain ⟨_, rfl⟩ := Confidence.ofValue_eq_ok_iff.mp hv
    cases hx
  rw [combineChildren_eq h] at hx
  cases hs : statements es with
  | nil =>
    rw [hs] at hx
    exact iff_of_true (Except.ok.inj hx).symm rfl
  | cons e rest =>
    rw [hs] at hx
    refine iff_of_false ?_ (List.cons_ne_nil e rest)
    cases a with
    | average => exact hvalue hx
    | min => exact hvalue hx
    | max => exact hvalue hx
    | weighted ws => exact hvalue hx

/-! ## Extremes -/

section Extreme

variable {K : Type*} [LinearOrder K] {key : Float → K} {beats : Float → Float → Bool}

/-- The value that is kept is the least one in the order in which values beat each other. -/
theorem foldl_beats_spec {vs : List Float} (v : Float)
    (hbeats : ∀ x ∈ v :: vs, ∀ y ∈ v :: vs, beats x y = true ↔ key x < key y) :
    vs.foldl (fun kept x => if beats x kept then x else kept) v ∈ v :: vs ∧
      ∀ x ∈ v :: vs, key (vs.foldl (fun kept x => if beats x kept then x else kept) v) ≤ key x := by
  induction vs generalizing v with
  | nil => simp
  | cons w vs ih =>
    have hvw := hbeats w (by simp) v (by simp)
    rw [List.foldl_cons]
    by_cases hw : beats w v = true
    · have hlt := hvw.mp hw
      obtain ⟨hmem, hle⟩ := ih w fun x hx y hy => hbeats x (List.mem_cons_of_mem v hx) y
        (List.mem_cons_of_mem v hy)
      rw [if_pos hw]
      exact ⟨List.mem_cons_of_mem v hmem, List.forall_mem_cons.mpr
        ⟨(hle w List.mem_cons_self).trans hlt.le, hle⟩⟩
    · have hle' : key v ≤ key w := not_lt.mp (hvw.not.mp hw)
      have hsub : ∀ x ∈ v :: vs, x ∈ v :: w :: vs := by simp +contextual
      obtain ⟨hmem, hle⟩ := ih v fun x hx y hy => hbeats x (hsub x hx) y (hsub y hy)
      rw [if_neg hw]
      refine ⟨hsub _ hmem, fun x hx => ?_⟩
      rcases List.mem_cons.mp hx with rfl | hx
      · exact hle x List.mem_cons_self
      · rcases List.mem_cons.mp hx with rfl | hx
        · exact (hle v List.mem_cons_self).trans hle'
        · exact hle x (List.mem_cons_of_mem v hx)

theorem mem_of_extreme {vs : List Float} {m : Float} (h : extreme beats vs = some m) : m ∈ vs := by
  cases vs with
  | nil => cases h
  | cons v vs =>
    rw [← Option.some.inj h]
    refine List.foldlRecOn (motive := fun kept => kept ∈ v :: vs) vs _ List.mem_cons_self ?_
    intro kept hkept x hx
    split
    · exact List.mem_cons_of_mem v hx
    · exact hkept

theorem mem_defined {v : Float} : v ∈ defined cs ↔ ∃ h, .of v h ∈ cs := by
  rw [defined, List.mem_filterMap]
  constructor
  · rintro ⟨c, hc, hv⟩
    cases c with
    | unset => cases hv
    | of w hw =>
      obtain rfl : w = v := Option.some.inj hv
      exact ⟨hw, hc⟩
  · rintro ⟨h, hc⟩
    exact ⟨.of v h, hc, rfl⟩

/-- If some child is defined, the extreme value is that of a defined child that no other beats. -/
theorem exists_extreme (key : Float → K) (beats : Float → Float → Bool)
    (hbeats : ∀ x y, Double.IsNumber x → Double.IsNumber y → (beats x y = true ↔ key x < key y))
    (hc : ∃ c ∈ cs, c.isDefined = true) :
    ∃ m hm, confidence (extreme beats (defined cs)) = .ok (.of m hm) ∧ .of m hm ∈ cs ∧
      ∀ v hv, .of v hv ∈ cs → key m ≤ key v := by
  have hnumber : ∀ v ∈ defined cs, Double.IsNumber v := fun v hv => by
    obtain ⟨hv, -⟩ := mem_defined.mp hv
    exact (Double.isNumber_of_le hv.1).2
  cases hvs : defined cs with
  | nil =>
    obtain ⟨c, hc, hdefined⟩ := hc
    cases c with
    | unset => cases hdefined
    | of v hv =>
      have hmem : v ∈ defined cs := mem_defined.mpr ⟨hv, hc⟩
      rw [hvs] at hmem
      cases hmem
  | cons v vs =>
    rw [hvs] at hnumber
    obtain ⟨hmem, hle⟩ := foldl_beats_spec v fun x hx y hy =>
      hbeats x y (hnumber x hx) (hnumber y hy)
    obtain ⟨hm, hmcs⟩ := mem_defined.mp (hvs ▸ hmem)
    refine ⟨_, hm, Confidence.ofValue_eq_ok_iff.mpr ⟨hm, rfl⟩, hmcs, fun w hw hwcs => ?_⟩
    exact hle w (hvs ▸ mem_defined.mpr ⟨hw, hwcs⟩)

end Extreme

theorem combine_min_isLeast (hc : ∃ c ∈ cs, c.isDefined = true) :
    ∃ x, min.combine cs = .ok x ∧ IsLeast {c | c ∈ cs ∧ c.isDefined = true} x := by
  obtain ⟨m, hm, hcombine, hmem, hle⟩ := exists_extreme Double.place
    (fun x kept => x < kept) (fun x y hx hy => by simp [Double.lt_iff, hx, hy]) hc
  refine ⟨.of m hm, hcombine, ⟨hmem, rfl⟩, fun c ⟨hc, hdefined⟩ => ?_⟩
  cases c with
  | unset => cases hdefined
  | of v hv => exact Confidence.le_iff.mpr (WithBot.coe_le_coe.mpr (hle v hv hc))

theorem combine_max_isGreatest (hc : ∃ c ∈ cs, c.isDefined = true) :
    ∃ x, max.combine cs = .ok x ∧ IsGreatest {c | c ∈ cs ∧ c.isDefined = true} x := by
  obtain ⟨m, hm, hcombine, hmem, hle⟩ := exists_extreme (OrderDual.toDual ∘ Double.place)
    (fun x kept => kept < x) (fun x y hx hy => by simp [Double.lt_iff, hx, hy]) hc
  refine ⟨.of m hm, hcombine, ⟨hmem, rfl⟩, fun c ⟨hc, hdefined⟩ => ?_⟩
  cases c with
  | unset => cases hdefined
  | of v hv => exact Confidence.le_iff.mpr (WithBot.coe_le_coe.mpr (hle v hv hc))

/-! ## Non-interference -/

/-- Children that abstain or have no weight do not matter: an aggregation abstains exactly if there are
no others, and if some of them are removed with their weights, the outcome is the same as long as any
children are left. Where there are others, the minimum and the maximum are one of them, whatever their
order is. -/
theorem only_influential_children_count (h : a.validate cs.length = .ok ()) :
    (∀ x, a.combine cs = .ok x →
      (x = .unset ↔ ∀ e ∈ a.children cs, influences e = false)) ∧
    (∀ es, es.Sublist (a.children cs) → es ≠ [] →
      es.filter influences = (a.children cs).filter influences →
        a.combineChildren es = a.combine cs) ∧
    ∀ ds, cs.Perm ds → (∃ c ∈ cs, c.isDefined = true) →
      (a = min → ∃ x, a.combine ds = .ok x ∧ IsLeast {c | c ∈ cs ∧ c.isDefined = true} x) ∧
      (a = max → ∃ x, a.combine ds = .ok x ∧ IsGreatest {c | c ∈ cs ∧ c.isDefined = true} x) := by
  have haccepts := accepts_children h
  refine ⟨fun x hx => ?_, fun es hes hne hsame => ?_, fun ds hds hc => ⟨?_, ?_⟩⟩
  · rw [← combineChildren_children h] at hx
    rw [eq_unset_iff haccepts hx, statements_eq_nil_iff]
  · rw [← combineChildren_children h, combineChildren_eq haccepts,
      combineChildren_eq (haccepts.sublist hes hne), statements, statements, hsame]
  · rintro rfl
    simp only [hds.mem_iff] at hc ⊢
    exact combine_min_isLeast hc
  · rintro rfl
    simp only [hds.mem_iff] at hc ⊢
    exact combine_max_isGreatest hc

theorem only_influential_children_count_of_three :
    (weighted [0.7, -0, 0.3]).validate 3 = .ok () ∧
      (weighted [0.7]).combine [.of 0.5 (by decide)] =
        (weighted [0.7, -0, 0.3]).combine [.of 0.5 (by decide), .of 0.9 (by decide), .unset] := by
  have hvalid : (weighted [0.7, -0, 0.3]).validate
      [.of 0.5 (by decide), .of 0.9 (by decide), Confidence.unset].length = .ok () := by rfl
  have hremoved := (only_influential_children_count hvalid).2.1 [(.of 0.5 (by decide), 0.7)]
  refine ⟨hvalid, hremoved ?_ (List.cons_ne_nil _ _) ?_⟩
  · exact .cons_cons _ (.cons _ (.cons _ .slnil))
  · rfl

end Aggregation

end TraceRecovery
