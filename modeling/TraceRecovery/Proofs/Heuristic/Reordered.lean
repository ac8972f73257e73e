import TraceRecovery.Proofs.Confidence.Sign
import TraceRecovery.Proofs.Heuristic.Linked

/-!
# Units with their types in another order

No heuristic makes a difference between units whose data types are the same in another order
(`CodeUnit.Reordered`): neither the two that look only at a candidate (`NameMatch.score_reordered`,
`PathMatch.score_reordered`) nor the two that extend a base. What these give to a candidate cannot
become less where each linked unit has a counterpart that is linked with the same confidence
(`Companion.extension_le`, `Inheritance.extension_le`); so further linked units do no harm, and the
order of linked units is of no concern.
-/

namespace TraceRecovery

/-- The same unit, but for the order of its data types. -/
structure CodeUnit.Reordered (u v : CodeUnit) : Prop where
  id_eq : u.id = v.id
  name_eq : u.name = v.name
  path_eq : u.path = v.path
  package_eq : u.package = v.package
  dataTypes_perm : u.dataTypes.Perm v.dataTypes

variable {u u' v v' : CodeUnit} {i : Item}

namespace CodeUnit.Reordered

theorem refl (u : CodeUnit) : u.Reordered u := ⟨rfl, rfl, rfl, rfl, .refl _⟩

theorem symm (h : u.Reordered u') : u'.Reordered u :=
  ⟨h.id_eq.symm, h.name_eq.symm, h.path_eq.symm, h.package_eq.symm, h.dataTypes_perm.symm⟩

theorem hasPackage_eq (h : u.Reordered u') : u.hasPackage = u'.hasPackage := by
  rw [hasPackage, hasPackage, h.package_eq]

theorem samePackage_eq (h : u.Reordered u') (hv : v.Reordered v') :
    u.samePackage v = u'.samePackage v' := by
  rw [samePackage, samePackage, h.package_eq, hv.package_eq]

theorem codeNames_perm (h : u.Reordered u') : u.codeNames.Perm u'.codeNames := by
  rw [codeNames, codeNames, h.name_eq]
  exact (h.dataTypes_perm.map _).cons _

theorem namesOf_perm (h : u.Reordered u') :
    (Companion.namesOf u).Perm (Companion.namesOf u') :=
  h.codeNames_perm.map _

theorem inheritsFrom_eq (h : u.Reordered u') (hv : v.Reordered v') :
    u.inheritsFrom v = u'.inheritsFrom v' := by
  have hdeclared : ∀ s, (v.dataTypes.any fun o => o.name == s) =
      v'.dataTypes.any fun o => o.name == s := fun s => hv.dataTypes_perm.any_eq
  simp only [inheritsFrom, hdeclared]
  exact h.dataTypes_perm.any_eq

end CodeUnit.Reordered

/-! ## Scores of single candidates -/

theorem NameScope.admits_reordered (scope : NameScope) (h : u.Reordered u') :
    scope.admits ⟨i, u⟩ = scope.admits ⟨i, u'⟩ := by
  simp only [admits, h.hasPackage_eq]

theorem NameMatch.score_reordered {scope : NameScope} {p : Name.Preprocessor} {x : Confidence}
    (h : u.Reordered u') (hx : score scope p ⟨i, u⟩ = .ok x) : score scope p ⟨i, u'⟩ = .ok x := by
  unfold score at hx ⊢
  rw [← scope.admits_reordered h]
  split at hx
  · rename_i hadmits
    obtain ⟨xs, hxs, hbest⟩ := Fallible.bind_eq_ok_iff.mp hx
    obtain ⟨ys, hys, hperm⟩ := Fallible.mapM_eq_ok_of_perm h.codeNames_perm.symm hxs
    have hplus : ∀ y ∈ ys, y.IsPlus := fun y hy => by
      obtain ⟨name, -, hname⟩ := Fallible.exists_of_mem_mapM hys hy
      exact isPlus_of_scoreName hname
    rw [if_pos hadmits]
    refine Fallible.bind_eq_ok_iff.mpr ⟨ys, hys, ?_⟩
    rw [Confidence.bestOf_eq_of_perm hperm hplus]
    exact hbest
  · rename_i hadmits
    rw [if_neg hadmits]
    exact hx

theorem PathMatch.score_reordered {k k' : Context} (h : u.Reordered u')
    (hk : k.packageNames = k'.packageNames) : score ⟨i, u⟩ k = score ⟨i, u'⟩ k' := by
  have hwords : pathWords k.packageNames u = pathWords k'.packageNames u' := by
    rw [pathWords, pathWords, considered, considered, hk, h.path_eq, h.hasPackage_eq]
  simp only [score, hwords]

/-! ## Extensions of a base -/

/-- Each unit linked to an item has a counterpart that is linked with the same confidence. -/
def Table.LinkedWithin (base base' : Table) (i : Item) : Prop :=
  ∀ v ∈ base.linkedUnits i.id, ∃ v' ∈ base'.linkedUnits i.id,
    v.Reordered v' ∧ base.get ⟨i, v⟩ = base'.get ⟨i, v'⟩

variable {base base' : Table}

/-- The best confidence of some linked units does not become less where the units have counterparts
that are among others. -/
theorem Table.LinkedWithin.bestOf_filter_le (hl : base.LinkedWithin base' i)
    {p p' : CodeUnit → Bool} (hp : ∀ v v', v.Reordered v' → p v = p' v') :
    Confidence.bestOf (((base.linkedUnits i.id).filter p).map fun v => base.get ⟨i, v⟩) ≤
      Confidence.bestOf (((base'.linkedUnits i.id).filter p').map fun v => base'.get ⟨i, v⟩) := by
  refine Confidence.bestOf_le_bestOf fun x hx => ?_
  obtain ⟨v, hv, rfl⟩ := List.mem_map.mp hx
  obtain ⟨hlinked, hpv⟩ := List.mem_filter.mp hv
  obtain ⟨v', hlinked', hreordered, hget⟩ := hl v hlinked
  have hmem : v' ∈ (base'.linkedUnits i.id).filter p' :=
    List.mem_filter.mpr ⟨hlinked', hp v v' hreordered ▸ hpv⟩
  exact ⟨_, List.mem_map_of_mem hmem, hget.le⟩

theorem Table.isPlus_bestOf_filter
    (h : ∀ v ∈ base.linkedUnits i.id, (base.get ⟨i, v⟩).IsPlus) (p : CodeUnit → Bool) :
    (Confidence.bestOf
      (((base.linkedUnits i.id).filter p).map fun v => base.get ⟨i, v⟩)).IsPlus := by
  refine Confidence.isPlus_bestOf fun x hx => ?_
  obtain ⟨v, hv, rfl⟩ := List.mem_map.mp hx
  exact h v (List.mem_of_mem_filter hv)

namespace Companion

theorem areSimilar_congr {ignored left left' right right' : List String} (hl : left.Perm left')
    (hr : right.Perm right') : areSimilar ignored left right = areSimilar ignored left' right' := by
  have hright : ∀ ls, (right.any fun r => reduced ignored r == ls) =
      right'.any fun r => reduced ignored r == ls := fun ls => hr.any_eq
  simp only [areSimilar, hright]
  exact hl.any_eq

theorem extension_le (ignored : List String) (h : u.Reordered u')
    (hl : base.LinkedWithin base' i) :
    extension ignored base ⟨i, u⟩ ≤ extension ignored base' ⟨i, u'⟩ := by
  unfold extension
  split
  · exact le_rfl
  · rw [areSimilar_congr h.namesOf_perm (.refl [i.name])]
    split
    · exact le_rfl
    · refine hl.bestOf_filter_le fun v v' hv => ?_
      rw [h.samePackage_eq hv, areSimilar_congr h.namesOf_perm hv.namesOf_perm]

theorem isPlus_extension (ignored : List String) {c : Candidate}
    (h : ∀ v ∈ base.linkedUnits c.item.id, (base.get ⟨c.item, v⟩).IsPlus) :
    (extension ignored base c).IsPlus := by
  unfold extension
  split
  · trivial
  · split
    · exact Double.isPlus_one
    · exact Table.isPlus_bestOf_filter h _

end Companion

namespace Inheritance

theorem extension_le (h : u.Reordered u') (hl : base.LinkedWithin base' i) :
    extension base ⟨i, u⟩ ≤ extension base' ⟨i, u'⟩ :=
  hl.bestOf_filter_le fun _ _ hv => h.inheritsFrom_eq hv

theorem isPlus_extension {c : Candidate}
    (h : ∀ v ∈ base.linkedUnits c.item.id, (base.get ⟨c.item, v⟩).IsPlus) :
    (extension base c).IsPlus :=
  Table.isPlus_bestOf_filter h _

end Inheritance

end TraceRecovery
