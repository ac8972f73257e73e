import TraceRecovery.Proofs.Standard.Nodes

/-!
# What a base justifies

Inheritance and companions carry the confidences of a base over to further units. What they give is
stated here with no lists of linked units and no running maximum, over all units of the code: a unit
gets the best confidence that the base defines for a unit which it inherits from, or which is in its
package and shares a name with it (`Confidence.IsBestOf`). A name is shared if the same words are
left of it, and some are, once the common words have gone that no item uses (`Companion.SharesName`).

The code walks the units that are linked to an item's id, and it compares names by dropping a list
of words. That this is the same needs two facts: in a table of a run the linked units are exactly
the units of the code with a value (`Table.mem_linkedUnits_iff`), and the dropped words are exactly
the ignored ones (`Companion.reduced_eq_remaining`).
-/

namespace TraceRecovery

variable {s : CandidateSpace} {base : Table} {c : Candidate} {x : Confidence}

/-- The confidences that linked units with some property contribute are those that the base defines
for units of the code with the property. -/
theorem Table.mem_map_filter_linkedUnits (h : base.written = s.candidates) (hc : c ∈ s.candidates)
    (p : CodeUnit → Bool) :
    x ∈ ((base.linkedUnits c.item.id).filter p).map (fun v => base.get ⟨c.item, v⟩) ↔
      ∃ v ∈ s.code.units, (base.get ⟨c.item, v⟩).isDefined = true ∧ p v = true ∧
        x = base.get ⟨c.item, v⟩ := by
  have hitem := (CandidateSpace.mem_candidates.mp hc).1
  simp only [List.mem_map, List.mem_filter, mem_linkedUnits_iff h hc,
    CandidateSpace.mem_candidates]
  constructor
  · rintro ⟨v, ⟨⟨⟨-, hv⟩, hdefined⟩, hp⟩, rfl⟩
    exact ⟨v, hv, hdefined, hp, rfl⟩
  · rintro ⟨v, hv, hdefined, hp, rfl⟩
    exact ⟨v, ⟨⟨⟨hitem, hv⟩, hdefined⟩, hp⟩, rfl⟩

/-! ## Inheritance -/

namespace Inheritance

variable {others : List Table}

theorem isBestOf_extension (h : base.written = s.candidates) (hc : c ∈ s.candidates) :
    Confidence.IsBestOf
      {y | ∃ v ∈ s.code.units, (base.get ⟨c.item, v⟩).isDefined = true ∧
        c.unit.inheritsFrom v = true ∧ y = base.get ⟨c.item, v⟩} (extension base c) :=
  Confidence.isBestOf_bestOf fun _ => Table.mem_map_filter_linkedUnits h hc _

theorem inherited_congr {k k' : Context} (h : k.code = k'.code) (vs : List CodeUnit) :
    inherited k base c vs = inherited k' base c vs := by
  induction vs with
  | nil => rfl
  | cons v vs ih => rw [inherited, inherited, h, ih]

/-- Only the first dependency is read. -/
theorem score_eq_reading : score c
      { Context.ofModels s.architecture s.code with dependencies := base :: others } =
    score c (.reading s base) := by
  have hinherited : inherited
      { Context.ofModels s.architecture s.code with dependencies := base :: others } base c
        (base.linkedUnits c.item.id) =
      inherited (.reading s base) base c (base.linkedUnits c.item.id) := inherited_congr (by rfl) _
  show (if (base.get c).isDefined then .ok Confidence.unset else inherited _ base c _ >>= _) = _
  rw [hinherited]
  rfl

end Inheritance

/-! ## Companions -/

namespace Companion

variable {commonWords : List String} {left right : List String} {others : List Table}

/-- A word that is left out of names: a common word, in whatever case, that no item's name uses. -/
def Ignored (commonWords : List String) (a : Architecture) (w : String) : Prop :=
  (∃ m ∈ commonWords, Text.lower m = w) ∧ ∀ i ∈ a.items, w ∉ Name.words i.name

instance (a : Architecture) (w : String) : Decidable (Ignored commonWords a w) :=
  inferInstanceAs (Decidable (_ ∧ _))

/-- The words of a name that are not left out. -/
def remaining (commonWords : List String) (a : Architecture) (name : String) : List String :=
  (Name.words name).filter fun w => ¬ Ignored commonWords a w

/-- Some name of one list and some name of another have the same remaining words, and at least one
of them. -/
def SharesName (commonWords : List String) (a : Architecture) (left right : List String) : Prop :=
  ∃ l ∈ left, ∃ r ∈ right,
    remaining commonWords a l = remaining commonWords a r ∧ remaining commonWords a l ≠ []

instance (a : Architecture) : Decidable (SharesName commonWords a left right) :=
  inferInstanceAs (Decidable (∃ l ∈ left, ∃ r ∈ right, _ ∧ _))

theorem contains_ignoredWords_iff {w : String} :
    (ignoredWords commonWords (.reading s base)).contains w = true ↔
      Ignored commonWords s.architecture w := by
  have hwords : ∀ v, v ∈ (Context.reading s base).architectureWords ↔
      ∃ i ∈ s.architecture.items, v ∈ Name.words i.name := fun v => by
    show v ∈ SortedSet.ofList _ ↔ _
    rw [SortedSet.mem_ofList, List.mem_flatMap]
  simp only [ignoredWords, List.contains_iff_mem, List.mem_filter, List.mem_map, Bool.not_eq_true',
    Bool.eq_false_iff, ne_eq, SortedSet.contains_iff, hwords, Ignored, not_exists, not_and]

theorem reduced_eq_remaining (name : String) :
    reduced (ignoredWords commonWords (.reading s base)) name =
      remaining commonWords s.architecture name := by
  refine List.filter_congr fun w _ => ?_
  rw [Bool.eq_iff_iff, Bool.not_eq_true', Bool.eq_false_iff, ne_eq, contains_ignoredWords_iff,
    decide_eq_true_iff]

theorem areSimilar_iff :
    areSimilar (ignoredWords commonWords (.reading s base)) left right = true ↔
      SharesName commonWords s.architecture left right := by
  simp only [areSimilar, reduced_eq_remaining, List.any_eq_true, Bool.and_eq_true,
    Bool.not_eq_true', List.isEmpty_eq_false_iff, beq_iff_eq, SharesName]
  constructor
  · rintro ⟨l, hl, hne, r, hr, heq⟩
    exact ⟨l, hl, r, hr, heq.symm, hne⟩
  · rintro ⟨l, hl, r, hr, heq, hne⟩
    exact ⟨l, hl, hne, r, hr, heq.symm⟩

theorem SharesName.symm {a : Architecture} (h : SharesName commonWords a left right) :
    SharesName commonWords a right left := by
  obtain ⟨l, hl, r, hr, heq, hne⟩ := h
  exact ⟨r, hr, l, hl, heq.symm, heq ▸ hne⟩

theorem areSimilar_comm (base : Table) (left right : List String) :
    areSimilar (ignoredWords commonWords (.reading s base)) left right =
      areSimilar (ignoredWords commonWords (.reading s base)) right left := by
  rw [Bool.eq_iff_iff, areSimilar_iff, areSimilar_iff]
  exact ⟨.symm, .symm⟩

theorem extension_of_hasSignatures (ignored : List String) (h : c.item.hasSignatures = true) :
    extension ignored base c = .unset := by
  rw [extension, if_pos h]

theorem value?_extension_of_sharesName (hi : c.item.hasSignatures = false)
    (h : SharesName commonWords s.architecture (namesOf c.unit) [c.item.name]) :
    (extension (ignoredWords commonWords (.reading s base)) base c).value? = some 1 := by
  rw [extension, hi, areSimilar_iff.mpr h]
  rfl

theorem isBestOf_extension (hwritten : base.written = s.candidates) (hc : c ∈ s.candidates)
    (hi : c.item.hasSignatures = false)
    (h : ¬ SharesName commonWords s.architecture (namesOf c.unit) [c.item.name]) :
    Confidence.IsBestOf
      {y | ∃ v ∈ s.code.units, (base.get ⟨c.item, v⟩).isDefined = true ∧
        c.unit.samePackage v = true ∧
        SharesName commonWords s.architecture (namesOf c.unit) (namesOf v) ∧
        y = base.get ⟨c.item, v⟩}
      (extension (ignoredWords commonWords (.reading s base)) base c) := by
  rw [extension, hi, Bool.eq_false_iff.mpr (areSimilar_iff.not.mpr h)]
  refine Confidence.isBestOf_bestOf fun y => ?_
  rw [siblings, Table.mem_map_filter_linkedUnits hwritten hc]
  simp only [Bool.and_eq_true, areSimilar_iff, and_assoc]
  rfl

end Companion

/-! ## Results of a run -/

/-- What the two heuristics give to a candidate that their base leaves open, whichever node of a
finished run the base is the result of and whatever else they may depend on. Neither ever fails, and
each gives exactly what the base justifies. Resemblance between units goes both ways. -/
theorem Tree.propagation_is_justified {t : Tree} (w : t.Turns) {ρ : Type}
    {isCancelled : StateM ρ Bool} {st : ρ} {e : Evaluation} {id : NodeId} {base : Table}
    (hrun : ((t.runInTurns isCancelled s w).run st).1 = .ok e)
    (hbase : e.board.table? id = some base) (hc : c ∈ s.candidates) (hopen : base.get c = .unset)
    (commonWords : List String) (others : List Table) :
    let k := { Context.ofModels s.architecture s.code with dependencies := base :: others }
    let names := fun u : CodeUnit => u.name :: u.dataTypes.map DataType.name
    let shares := Companion.SharesName commonWords s.architecture
    (∃ heir, Heuristic.byInheritance.score c k = .ok heir ∧
      Confidence.IsBestOf
        {y | ∃ v ∈ s.code.units, (base.get ⟨c.item, v⟩).isDefined = true ∧
          c.unit.inheritsFrom v = true ∧ y = base.get ⟨c.item, v⟩} heir) ∧
    (∃ companion, (Heuristic.byCompanions commonWords).score c k = .ok companion ∧
      (c.item.hasSignatures = true → companion = .unset) ∧
      (c.item.hasSignatures = false → shares (names c.unit) [c.item.name] →
        companion.value? = some 1) ∧
      (c.item.hasSignatures = false → ¬ shares (names c.unit) [c.item.name] →
        Confidence.IsBestOf
          {y | ∃ v ∈ s.code.units, (base.get ⟨c.item, v⟩).isDefined = true ∧
            c.unit.samePackage v = true ∧ shares (names c.unit) (names v) ∧
            y = base.get ⟨c.item, v⟩} companion)) ∧
    ∀ u v, Companion.areSimilar (Companion.ignoredWords commonWords k) (names u) (names v) =
      Companion.areSimilar (Companion.ignoredWords commonWords k) (names v) (names u) := by
  intro k names shares
  have hwritten : base.written = s.candidates :=
    (((runInTurns_spec w isCancelled st).of_eq_ok hrun).written id base hbase).1
  have hnames : names = Companion.namesOf := by
    funext u
    simp [names, Companion.namesOf, CodeUnit.codeNames, Function.comp_def]
  rw [hnames]
  refine ⟨?_, ?_, fun u v => Companion.areSimilar_comm base _ _⟩
  · have hscore := Inheritance.score_eq_ok hwritten hc hopen
    exact ⟨_, Inheritance.score_eq_reading.trans hscore,
      Inheritance.isBestOf_extension hwritten hc⟩
  · exact ⟨_, Companion.score_eq_ok commonWords hopen,
      Companion.extension_of_hasSignatures _, Companion.value?_extension_of_sharesName,
      Companion.isBestOf_extension hwritten hc⟩

/-! ## A small example -/

namespace OrderDesk

/-- A unit in another package that is linked to the component by one word of two. -/
def archiveUnit : CodeUnit :=
  ((CodeUnit.named "d" "OrdersArchive").inPackage "tools").withType ⟨"OrderLine", .classType, []⟩

/-- A unit in that package that is linked to the component by one word of three. -/
def storeUnit : CodeUnit :=
  ((CodeUnit.named "e" "OrdersArchiveStore").inPackage "tools").withType
    ⟨"OrderLine", .classType, []⟩

/-- A companion of all units that declare order lines, two of them in its own package. -/
def lineUnit : CodeUnit := (CodeUnit.named "f" "OrderLineFactory").inPackage "tools"

/-- Code with units to inherit from and companions. -/
def related : Code :=
  ⟨[orderUnit, invoiceUnit, storeUnit, archiveUnit, lineUnit], packages, by decide, by decide⟩

/-- A base that leaves two units open and links three, with rising confidences. -/
structure IsRelatedBase (base : Table) : Prop where
  invoice : base.get ⟨orders, invoiceUnit⟩ = .unset
  line : base.get ⟨orders, lineUnit⟩ = .unset
  store : (base.get ⟨orders, storeUnit⟩).isDefined = true
  store_lt : base.get ⟨orders, storeUnit⟩ < base.get ⟨orders, archiveUnit⟩
  archive_lt : base.get ⟨orders, archiveUnit⟩ < base.get ⟨orders, orderUnit⟩

theorem exists_relatedBase : ∃ t e base, Tree.standard .default = .ok t ∧
    t.run ⟨architecture, related⟩ false = .ok e ∧
    e.board.table? StandardNode.weighted.id = some base ∧ IsRelatedBase base := by
  let confidence (tb : Table) (u : CodeUnit) : Confidence := tb.get ⟨orders, u⟩
  obtain ⟨e, he, hvalues⟩ := Fallible.exists_of_any_toOption
    (x := Tree.standard .default >>= fun t => t.run ⟨architecture, related⟩ false)
    (p := fun e => (e.board.table? StandardNode.weighted.id).any fun tb =>
      !(confidence tb invoiceUnit).isDefined && !(confidence tb lineUnit).isDefined &&
        (confidence tb storeUnit).isDefined &&
        decide (confidence tb storeUnit < confidence tb archiveUnit) &&
        decide (confidence tb archiveUnit < confidence tb orderUnit))
    (by decide +kernel)
  obtain ⟨t, ht, hrun⟩ := Fallible.bind_eq_ok_iff.mp he
  obtain ⟨base, hbase, hvalues⟩ := (Option.any_eq_true _ _).mp hvalues
  simp only [Bool.and_eq_true, Bool.not_eq_true', decide_eq_true_eq] at hvalues
  obtain ⟨⟨⟨⟨hinvoice, hline⟩, hstore⟩, hlt⟩, hlt'⟩ := hvalues
  exact ⟨t, e, base, ht, hrun, hbase,
    { invoice := Confidence.eq_unset_of_isDefined_eq_false hinvoice
      line := Confidence.eq_unset_of_isDefined_eq_false hline
      store := hstore
      store_lt := hlt
      archive_lt := hlt' }⟩

end OrderDesk

open OrderDesk in
/-- The unit that inherits from the component's own unit takes over at least the confidence of that
unit. No unit in its package has a name in common with it, so it gets nothing as a companion. A
companion gets the higher one of the two confidences in its package, and not that of the component's
own unit, which is higher still, but in another package. -/
theorem Tree.propagation_is_justified_orderDesk : ∃ t e base heir,
    Tree.standard .default = .ok t ∧ t.run ⟨architecture, related⟩ false = .ok e ∧
    e.board.table? StandardNode.weighted.id = some base ∧ IsRelatedBase base ∧
    Heuristic.byInheritance.score ⟨orders, invoiceUnit⟩ (.reading ⟨architecture, related⟩ base) =
      .ok heir ∧
    base.get ⟨orders, orderUnit⟩ ≤ heir ∧
    (Heuristic.byCompanions Settings.default.commonWords).score ⟨orders, invoiceUnit⟩
      (.reading ⟨architecture, related⟩ base) = .ok .unset ∧
    (Heuristic.byCompanions Settings.default.commonWords).score ⟨orders, lineUnit⟩
      (.reading ⟨architecture, related⟩ base) = .ok (base.get ⟨orders, archiveUnit⟩) := by
  obtain ⟨t, e, base, ht, hrun, hbase, hvalues⟩ := exists_relatedBase
  have harchive : (base.get ⟨orders, archiveUnit⟩).isDefined = true :=
    Confidence.isDefined_of_lt hvalues.store_lt
  have horder : (base.get ⟨orders, orderUnit⟩).isDefined = true :=
    Confidence.isDefined_of_lt hvalues.archive_lt
  have hjustified := fun c hc hopen => Tree.propagation_is_justified (c := c) t.listedTurns
    ((Tree.run_runInTurns_pure false _).trans hrun) hbase hc hopen Settings.default.commonWords []
  obtain ⟨⟨heir, hheir, hbest⟩, ⟨nothing, hnothing, -, -, hnone⟩, -⟩ :=
    hjustified ⟨orders, invoiceUnit⟩ (by decide) hvalues.invoice
  obtain ⟨-, ⟨companion, hcompanion, -, -, hmaximum⟩, -⟩ :=
    hjustified ⟨orders, lineUnit⟩ (by decide) hvalues.line
  have hle : base.get ⟨orders, orderUnit⟩ ≤ heir :=
    hbest.le ⟨orderUnit, by decide, horder, by decide, rfl⟩
  have halone : ∀ v ∈ related.units, invoiceUnit.samePackage v = true → v = invoiceUnit := by
    decide
  obtain rfl : nothing = .unset := by
    refine Confidence.eq_unset_of_isDefined_eq_false (Bool.eq_false_iff.mpr fun hdefined => ?_)
    obtain ⟨v, hv, hlinked, hpackage, -⟩ :=
      (hnone rfl (by decide +kernel)).mem_of_isDefined hdefined
    rw [halone v hv hpackage, hvalues.invoice] at hlinked
    cases hlinked
  have hcandidates : ∀ v ∈ related.units, lineUnit.samePackage v = true →
      v = storeUnit ∨ v = archiveUnit ∨ v = lineUnit := by decide
  obtain rfl : companion = base.get ⟨orders, archiveUnit⟩ := by
    have hbestOf := hmaximum rfl (by decide +kernel)
    have hge : base.get ⟨orders, archiveUnit⟩ ≤ companion :=
      hbestOf.le ⟨archiveUnit, by decide, harchive, by decide, by decide +kernel, rfl⟩
    obtain ⟨v, hv, hlinked, hpackage, -, rfl⟩ :=
      hbestOf.mem_of_isDefined (Confidence.isDefined_of_le hge harchive)
    rcases hcandidates v hv hpackage with rfl | rfl | rfl
    · exact absurd hge (not_le_of_gt hvalues.store_lt)
    · rfl
    · rw [hvalues.line] at hlinked
      cases hlinked
  exact ⟨t, e, base, heir, ht, hrun, hbase, hvalues, hheir, hle, hnothing, hcompanion⟩

end TraceRecovery
