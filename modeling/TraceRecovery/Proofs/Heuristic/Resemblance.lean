import TraceRecovery.Proofs.Confidence.Range
import TraceRecovery.Proofs.Double.Quotient
import TraceRecovery.Proofs.Heuristic.Reordered
import TraceRecovery.Proofs.Standard.Nodes

/-!
# The best of a unit's names

A unit has the confidence of the best of its names, so types that are added can only raise it. What
a single name speaks for is stated by cases (`NameMatch.Evidence`), without the order in which names
are tried: all words of the item's name are found in it, or, in the scope of interfaces, all words
but the mark.

* `NameMatch.isBestOf_score`: a candidate in scope gets the best confidence that any of the
  unit's names speaks for;
* `NameMatch.best_of_covering_names`: so scores are above zero, do not depend on the order of types
  and never fall when a type is added. Outside the scope of interfaces they are the greatest share
  that the item's words make up of a name which has them all;
* `NameMatch.typed_match_counts_fully`: an interface of the code that has all words of the item's
  name counts fully. One that has all words but the mark does not
  (`NameMatch.typed_match_without_mark_counts_partly`).
-/

namespace TraceRecovery

open Double (IsShare)

namespace Confidence

variable {x : Confidence} {v w : Float}

theorem mem_of_value? (h : x.value? = some v) : 0 ≤ v ∧ v ≤ 1 := by
  cases x with
  | unset => cases h
  | of u hu =>
    rw [← Option.some.inj h]
    exact hu

theorem isDefined_of_value? (h : x.value? = some v) : x.isDefined = true := by
  rw [isDefined_iff_value?_isSome, h]
  rfl

theorem ofValue_eq_ok_iff_eq (h : x.value? = some v) : ofValue w = .ok x ↔ w = v := by
  rw [ofValue_eq_ok_iff]
  constructor
  · rintro ⟨hw, rfl⟩
    exact Option.some.inj h
  · rintro rfl
    refine ⟨mem_of_value? h, ?_⟩
    cases x with
    | unset => cases h
    | of u hu => simpa [value?] using h

end Confidence

/-! ## Words of one name among those of another -/

namespace Name

variable {needle haystack : List String} {p : Preprocessor} {a b : String}

theorem isContained_iff : isContained needle haystack = true ↔ needle ≠ [] ∧ needle ⊆ haystack := by
  simp [isContained, List.subset_def]

theorem isShare_lengthRatio (hn : needle ≠ []) (hn' : needle.length < 2 ^ 64) (hh : haystack ≠ [])
    (hh' : haystack.length < 2 ^ 64) :
    IsShare needle.length haystack.length (lengthRatio needle haystack) := by
  have hpos := List.length_pos_iff.mpr hh
  have hnumber := Double.isNumber_ofNat_div (List.length_pos_iff.mpr hn) hn' hpos hh'
  have hlt := Double.not_lt_iff (Double.isNumber_of_isFinite (x := 1) rfl) hnumber
  have hratio : lengthRatio needle haystack =
      lesser (Float.ofNat needle.length / Float.ofNat haystack.length) 1 :=
    if_neg (by simp [hn, hh])
  rw [hratio]
  refine Double.isShare_of_eq hpos (fun hle => ?_) fun hle => ?_
  · exact if_neg (hlt.mpr (Double.ofNat_div_mem hle hpos hh').2)
  · unfold lesser
    split
    · rfl
    · exact Double.eq_one_of_ofNat_div hle hn' hpos (hlt.mp ‹_›)

/-- A name has all words of another one, of which there is at least one. -/
def Preprocessor.Covers (p : Preprocessor) (wanted name : String) : Prop :=
  p.words wanted ≠ [] ∧ p.words wanted ⊆ p.words name

instance : Decidable (p.Covers a b) := inferInstanceAs (Decidable (_ ∧ ∀ _ ∈ _, _))

namespace Preprocessor.Covers

theorem iff_isContained : isContained (p.words a) (p.words b) = true ↔ p.Covers a b :=
  isContained_iff

theorem words_ne_nil (h : p.Covers a b) : p.words b ≠ [] := fun hnil =>
  h.1 (List.subset_nil.mp (hnil ▸ h.2))

theorem isShare (h : p.Covers a b) (ha : a.length < 2 ^ 64) (hb : b.length < 2 ^ 64) :
    IsShare (p.words a).length (p.words b).length (lengthRatio (p.words a) (p.words b)) :=
  isShare_lengthRatio h.1 (p.length_words_lt ha) h.words_ne_nil (p.length_words_lt hb)

theorem pos {v : Float} (h : p.Covers a b) (ha : a.length < 2 ^ 64) (hb : b.length < 2 ^ 64)
    (hv : IsShare (p.words a).length (p.words b).length v) : 0 < v :=
  hv.pos (List.length_pos_iff.mpr h.1) (p.length_words_lt ha)
    (List.length_pos_iff.mpr h.words_ne_nil) (p.length_words_lt hb)

end Preprocessor.Covers

end Name

/-! ## What a name speaks for -/

namespace NameMatch

variable {scope : NameScope} {p : Name.Preprocessor} {item : Item} {name : CodeName} {v : Float}
  {x y : Confidence}

/-- A name of the code speaks for an item with the value `v`. -/
inductive Evidence (scope : NameScope) (p : Name.Preprocessor) (item : Item) (name : CodeName)
    (v : Float) : Prop
  /-- An interface that has all words of the name of an interface. -/
  | typed : p.Covers item.name name.name → scope = .interface → name.kind = .interfaceType →
      v = 1 → Evidence scope p item name v
  /-- Any other name that has all words of the item's name. -/
  | plain : p.Covers item.name name.name → ¬ (scope = .interface ∧ name.kind = .interfaceType) →
      IsShare (p.words item.name).length (p.words name.name).length v → Evidence scope p item name v
  /-- A name, of whatever kind, that has all words of the name of an interface but the mark. -/
  | unmarked {rest : String} : ¬ p.Covers item.name name.name → scope = .interface →
      withoutInterfaceMark? item.name = some rest → p.Covers rest name.name →
      IsShare (p.words rest).length (p.words name.name).length v → Evidence scope p item name v

theorem fallback_eq_some_iff {words : List String} :
    (wanted scope p item).fallback = some words ↔ scope = .interface ∧
      ∃ rest, withoutInterfaceMark? item.name = some rest ∧ p.words rest = words := by
  rw [wanted]
  dsimp only
  split
  · rw [Option.map_eq_some_iff, and_iff_right ‹_›]
  · exact iff_of_false (Option.some_ne_none words).symm fun h => ‹¬_› h.1

section Fits

variable (hitem : item.name.length < 2 ^ 64) (hname : name.name.length < 2 ^ 64)

include hitem hname

theorem Evidence.pos (h : Evidence scope p item name v) : 0 < v := by
  cases h with
  | typed _ _ _ hv => exact hv ▸ by decide
  | plain hc _ hv => exact hc.pos hitem hname hv
  | unmarked _ _ hrest hc hv =>
    exact hc.pos ((length_le_of_withoutInterfaceMark? hrest).trans_lt hitem) hname hv

theorem Evidence.scoreName_eq_ok (h : Evidence scope p item name v) (hx : x.value? = some v) :
    scoreName scope p (wanted scope p item) name = .ok x := by
  cases h with
  | typed hc hscope hkind hv =>
    refine (if_pos (Name.Preprocessor.Covers.iff_isContained.mpr hc)).trans ?_
    rw [if_pos ⟨hscope, hkind⟩]
    exact (Confidence.ofValue_eq_ok_iff_eq hx).mpr hv.symm
  | plain hc hkind hv =>
    refine (if_pos (Name.Preprocessor.Covers.iff_isContained.mpr hc)).trans ?_
    rw [if_neg hkind]
    exact (Confidence.ofValue_eq_ok_iff_eq hx).mpr ((hc.isShare hitem hname).unique hv)
  | @unmarked rest hno hscope hrest hc hv =>
    have hfallback : (wanted scope p item).fallback = some (p.words rest) :=
      fallback_eq_some_iff.mpr ⟨hscope, rest, hrest, rfl⟩
    have hshort := (length_le_of_withoutInterfaceMark? hrest).trans_lt hitem
    refine (if_neg (Name.Preprocessor.Covers.iff_isContained.not.mpr hno)).trans ?_
    rw [hfallback]
    refine (if_pos (Name.Preprocessor.Covers.iff_isContained.mpr hc)).trans ?_
    exact (Confidence.ofValue_eq_ok_iff_eq hx).mpr ((hc.isShare hshort hname).unique hv)

theorem exists_evidence (h : scoreName scope p (wanted scope p item) name = .ok x)
    (hx : x.isDefined = true) : ∃ v, x.value? = some v ∧ Evidence scope p item name v := by
  obtain ⟨v, hv⟩ := Option.isSome_iff_exists.mp (x.isDefined_iff_value?_isSome ▸ hx)
  refine ⟨v, hv, ?_⟩
  unfold scoreName at h
  dsimp only at h
  split at h
  · rename_i hc
    have hc := Name.Preprocessor.Covers.iff_isContained.mp hc
    split at h
    · rename_i hkind
      exact .typed hc hkind.1 hkind.2 ((Confidence.ofValue_eq_ok_iff_eq hv).mp h).symm
    · rename_i hkind
      exact .plain hc hkind ((Confidence.ofValue_eq_ok_iff_eq hv).mp h ▸ hc.isShare hitem hname)
  · rename_i hno
    have hno := Name.Preprocessor.Covers.iff_isContained.not.mp hno
    split at h
    · rename_i words hfallback
      obtain ⟨hscope, rest, hrest, rfl⟩ := fallback_eq_some_iff.mp hfallback
      have hshort := (length_le_of_withoutInterfaceMark? hrest).trans_lt hitem
      split at h
      · rename_i hc
        have hc := Name.Preprocessor.Covers.iff_isContained.mp hc
        exact .unmarked hno hscope hrest hc
          ((Confidence.ofValue_eq_ok_iff_eq hv).mp h ▸ hc.isShare hshort hname)
      · cases Except.ok.inj h
        cases hx
    · cases Except.ok.inj h
      cases hx

end Fits

/-! ## The best of all names -/

variable {c : Candidate} {u : CodeUnit}

/-- The confidences that the names of a unit speak for. -/
def evidence (scope : NameScope) (p : Name.Preprocessor) (c : Candidate) : Set Confidence :=
  {y | ∃ name ∈ c.unit.codeNames, ∃ v, y.value? = some v ∧ Evidence scope p c.item name v}

theorem mem_evidence_of_one (hname : name ∈ c.unit.codeNames)
    (h : Evidence scope p c.item name 1) : .of 1 (by decide) ∈ evidence scope p c :=
  ⟨name, hname, 1, rfl, h⟩

/-- A candidate in scope gets the best confidence that a name of the unit speaks for. -/
theorem isBestOf_score (hfit : c.NamesFit) (ha : scope.admits c = true)
    (h : score scope p c = .ok x) : Confidence.IsBestOf (evidence scope p c) x := by
  rw [score, if_pos ha] at h
  obtain ⟨ys, hys, h⟩ := Fallible.bind_eq_ok_iff.mp h
  obtain rfl : Confidence.bestOf ys = x := Except.ok.inj h
  -- A name that speaks for nothing gives an abstention, so only defined values are compared.
  refine Confidence.isBestOf_bestOf_of_isDefined fun y => ⟨?_, ?_⟩
  · rintro ⟨name, hname, v, hv, hevidence⟩
    obtain ⟨z, hz, hok⟩ := (Fallible.mapM_eq_ok_iff.mp hys).exists_of_mem hname
    rw [hevidence.scoreName_eq_ok hfit.item (hfit.unit name hname) hv] at hok
    exact ⟨Except.ok.inj hok ▸ hz, Confidence.isDefined_of_value? hv⟩
  · rintro ⟨hy, hdefined⟩
    obtain ⟨name, hname, hok⟩ := Fallible.exists_of_mem_mapM hys hy
    obtain ⟨v, hv, hevidence⟩ := exists_evidence hfit.item (hfit.unit name hname) hok hdefined
    exact ⟨name, hname, v, hv, hevidence⟩

theorem value?_eq_one_of_evidence (hfit : c.NamesFit) (ha : scope.admits c = true)
    (h : score scope p c = .ok x) (hname : name ∈ c.unit.codeNames)
    (hevidence : Evidence scope p c.item name 1) : x.value? = some 1 :=
  Confidence.value?_eq_one_of_le (isPlus_of_score_eq_ok h)
    ((isBestOf_score hfit ha h).le (mem_evidence_of_one hname hevidence))

theorem score_pos (hfit : c.NamesFit) (h : score scope p c = .ok x) (hx : x.value? = some v) :
    0 < v := by
  by_cases ha : scope.admits c = true
  · obtain ⟨name, hname, w, hw, hevidence⟩ :=
      (isBestOf_score hfit ha h).mem_of_isDefined (Confidence.isDefined_of_value? hx)
    obtain rfl : v = w := Option.some.inj (hx.symm.trans hw)
    exact hevidence.pos hfit.item (hfit.unit name hname)
  · rw [score, if_neg ha] at h
    cases Except.ok.inj h
    cases hx

/-- Further types do not lower the score. -/
theorem score_le_of_subset (hfit : c.NamesFit) (hfit' : Candidate.NamesFit ⟨c.item, u⟩)
    (hpackage : c.unit.hasPackage = u.hasPackage) (hnames : c.unit.codeNames ⊆ u.codeNames)
    (h : score scope p c = .ok x) (h' : score scope p ⟨c.item, u⟩ = .ok y) : x ≤ y := by
  have hadmits : scope.admits c = scope.admits ⟨c.item, u⟩ := by
    simp only [NameScope.admits, hpackage]
  by_cases ha : scope.admits c = true
  · refine (isBestOf_score hfit ha h).mono (isBestOf_score hfit' (hadmits ▸ ha) h') ?_
    rintro z ⟨name, hname, hz⟩
    exact ⟨name, hnames hname, hz⟩
  · rw [score, if_neg ha] at h
    exact Except.ok.inj h ▸ Confidence.unset_le y

theorem evidence_of_component (hscope : scope ≠ .interface) : evidence scope p c =
    {y | ∃ name ∈ c.unit.codeNames, p.Covers c.item.name name.name ∧ ∃ v, y.value? = some v ∧
      IsShare (p.words c.item.name).length (p.words name.name).length v} := by
  ext y
  constructor
  · rintro ⟨name, hname, v, hv, hevidence⟩
    cases hevidence with
    | typed _ hinterface => exact absurd hinterface hscope
    | plain hc _ hshare => exact ⟨name, hname, hc, v, hv, hshare⟩
    | unmarked _ hinterface => exact absurd hinterface hscope
  · rintro ⟨name, hname, hc, v, hv, hshare⟩
    exact ⟨name, hname, v, hv, .plain hc (fun h => hscope h.1) hshare⟩

/-- The item's own name speaks for it without reserve. -/
theorem evidence_of_same_name (hitem : c.item.name.length < 2 ^ 64)
    (hwords : p.words c.item.name ≠ []) (hsame : name.name = c.item.name) :
    Evidence scope p c.item name 1 := by
  have hc : p.Covers c.item.name name.name := by
    rw [hsame]
    exact ⟨hwords, List.Subset.refl _⟩
  by_cases hkind : scope = .interface ∧ name.kind = .interfaceType
  · exact .typed hc hkind.1 hkind.2 rfl
  · refine .plain hc hkind ?_
    rw [hsame]
    exact Double.isShare_one le_rfl (p.length_words_lt hitem) (List.length_pos_iff.mpr hwords)

/-- Every candidate can be scored by names. A score is above zero and at most one; it does not
depend on the order of the unit's types and does not fall when a type is added. In a scope for
components it is the greatest share that the item's words make up of a name of the unit which has
them all, and there is none if no name has. In any scope it is one if a name of the unit is that of
the item. -/
theorem best_of_covering_names (scope : NameScope) (p : Name.Preprocessor) (hfit : c.NamesFit)
    (k : Context) :
    let score := fun c => (Heuristic.byName scope p).score c k
    ∃ x, score c = .ok x ∧
      (∀ v, x.value? = some v → 0 < v ∧ v ≤ 1) ∧
      (∀ u, c.unit.Reordered u → score ⟨c.item, u⟩ = .ok x) ∧
      (∀ t : DataType, t.name.length < 2 ^ 64 →
        ∃ y, score ⟨c.item, c.unit.withType t⟩ = .ok y ∧ x ≤ y) ∧
      (scope ≠ .interface → scope.admits c = true → Confidence.IsBestOf
        {y | ∃ name ∈ c.unit.codeNames, p.Covers c.item.name name.name ∧ ∃ v, y.value? = some v ∧
          IsShare (p.words c.item.name).length (p.words name.name).length v} x) ∧
      (scope.admits c = true → p.words c.item.name ≠ [] →
        (∃ name ∈ c.unit.codeNames, name.name = c.item.name) → x.value? = some 1) := by
  intro score
  obtain ⟨x, hx⟩ : ∃ x, NameMatch.score scope p c = .ok x := exists_score_eq_ok hfit
  refine ⟨x, hx, fun v hv => ?_, fun u hu => ?_, fun t ht => ?_, fun hscope ha => ?_, ?_⟩
  · exact ⟨score_pos hfit hx hv, (Confidence.mem_of_value? hv).2⟩
  · exact score_reordered hu hx
  · have hnames : (c.unit.withType t).codeNames = c.unit.codeNames ++ [⟨t.name, t.kind⟩] := by
      simp [CodeUnit.codeNames, CodeUnit.withType]
    have hfit' : Candidate.NamesFit ⟨c.item, c.unit.withType t⟩ := by
      refine ⟨hfit.item, fun name hname => ?_⟩
      rw [hnames, List.mem_append, List.mem_singleton] at hname
      rcases hname with hname | rfl
      · exact hfit.unit name hname
      · exact ht
    obtain ⟨y, hy⟩ : ∃ y, NameMatch.score scope p ⟨c.item, c.unit.withType t⟩ = .ok y :=
      exists_score_eq_ok hfit'
    have hsubset : c.unit.codeNames ⊆ (c.unit.withType t).codeNames :=
      hnames ▸ List.subset_append_left _ _
    exact ⟨y, hy, score_le_of_subset hfit hfit' rfl hsubset hx hy⟩
  · rw [← evidence_of_component hscope]
    exact isBestOf_score hfit ha hx
  · rintro ha hwords ⟨name, hname, hsame⟩
    exact value?_eq_one_of_evidence hfit ha hx hname
      (evidence_of_same_name hfit.item hwords hsame)

open OrderDesk in
/-- The unit that the component is named after declares a further type. -/
theorem best_of_covering_names_orderDesk : ∃ x y,
    NameScope.component.admits ⟨orders, orderUnit⟩ = true ∧
    (Heuristic.byName .component (.ofMethod .splitFiltered)).score ⟨orders, orderUnit⟩
      (.ofModels architecture code) = .ok x ∧ x.value? = some 1 ∧
    (Heuristic.byName .component (.ofMethod .splitFiltered)).score
      ⟨orders, orderUnit.withType ⟨"OrdersArchive", .classType, []⟩⟩ (.ofModels architecture code) =
        .ok y ∧ x ≤ y := by
  have hfit : Candidate.NamesFit ⟨orders, orderUnit⟩ := ⟨by decide +kernel, by decide +kernel⟩
  obtain ⟨x, hx, -, -, htype, -, hsame⟩ := best_of_covering_names .component
    (.ofMethod .splitFiltered) hfit (.ofModels architecture code)
  obtain ⟨y, hy, hle⟩ := htype ⟨"OrdersArchive", .classType, []⟩ (by decide +kernel)
  exact ⟨x, y, rfl, hx, hsame rfl (by decide +kernel) (by decide +kernel), hy, hle⟩

/-! ## The scope of interfaces -/

/-- An interface with methods gets the best confidence that a name of the unit speaks for. It is one
if an interface of the code has all words of its name. -/
theorem typed_match_counts_fully (p : Name.Preprocessor) (hfit : c.NamesFit)
    (hi : c.item.hasSignatures = true) (k : Context) :
    ∃ x, (Heuristic.byName .interface p).score c k = .ok x ∧
      ((∃ t ∈ c.unit.dataTypes, t.kind = .interfaceType ∧ p.Covers c.item.name t.name) →
        x.value? = some 1) ∧
      Confidence.IsBestOf (evidence .interface p c) x := by
  have ha : NameScope.interface.admits c = true := by simp [NameScope.admits, hi]
  obtain ⟨x, hx⟩ : ∃ x, score .interface p c = .ok x := exists_score_eq_ok hfit
  refine ⟨x, hx, ?_, isBestOf_score hfit ha hx⟩
  rintro ⟨t, ht, hkind, hc⟩
  have hname : ⟨t.name, t.kind⟩ ∈ c.unit.codeNames :=
    List.mem_cons_of_mem _ (List.mem_map_of_mem ht)
  exact value?_eq_one_of_evidence hfit ha hx hname (.typed hc rfl hkind rfl)

open OrderDesk in
theorem typed_match_counts_fully_orderDesk : ∃ x, billing.hasSignatures = true ∧
    (Heuristic.byName .interface (.ofMethod .split)).score
      ⟨billing, invoiceUnit.withType ⟨"BillingGateway", .interfaceType, []⟩⟩
        (.ofModels architecture code) = .ok x ∧ x.value? = some 1 := by
  obtain ⟨x, hx, htyped, -⟩ := typed_match_counts_fully (.ofMethod .split)
    (c := ⟨billing, invoiceUnit.withType ⟨"BillingGateway", .interfaceType, []⟩⟩)
    ⟨by decide +kernel, by decide +kernel⟩ rfl (.ofModels architecture code)
  exact ⟨x, rfl, hx, htyped (by decide +kernel)⟩

/-- An interface with a mark, and a unit with an interface that is called by the same words and one
more. -/
theorem typed_match_without_mark_counts_partly :
    let item := Item.interface "i" "IOrderService" ["place()"]
    let type : DataType := ⟨"OrderServiceClient", .interfaceType, []⟩
    let p := Name.Preprocessor.ofMethod .split
    item.hasSignatures = true ∧ withoutInterfaceMark? item.name = some "OrderService" ∧
      p.Covers "OrderService" type.name ∧
      ∃ x v, (Heuristic.byName .interface p).score
        ⟨item, (CodeUnit.named "u" "Module").withType type⟩ (.ofModels .empty .empty) = .ok x ∧
          x.value? = some v ∧ v < 1 := by
  intro item type p
  obtain ⟨x, hx, hvalue⟩ := Fallible.exists_of_any_toOption
    (x := (Heuristic.byName .interface p).score
      ⟨item, (CodeUnit.named "u" "Module").withType type⟩ (.ofModels .empty .empty))
    (p := fun x => x.value?.any (· < 1)) (by decide +kernel)
  obtain ⟨v, hv, hlt⟩ := (Option.any_eq_true _ _).mp hvalue
  exact ⟨rfl, by decide +kernel, by decide +kernel, x, v, hx, hv, of_decide_eq_true hlt⟩

end NameMatch

end TraceRecovery
