import TraceRecovery.Proofs.Heuristic.Propagation
import TraceRecovery.Proofs.Name.Spelling
import TraceRecovery.Proofs.Tree.Passes

/-!
# Companions named by a suffix

A unit is recognised as a companion of an item if its name is that of the item with a common word
behind it (`Companion.suffix_counts_fully`). Two things come together here. A capital behind a small
letter begins a word, so the words of the name are those of the item and the suffix as the last one
(`Name.words_append_capital`). And the suffix is left out again, as no item uses it, so what remains
of the unit's name is what remains of the item's (`Companion.IsSuffix.remaining_append`).
-/

namespace TraceRecovery

namespace Companion

variable {a : Architecture} {commonWords : List String} {i : Item} {u : CodeUnit} {w : String}

/-- A common word that can stand behind the name of any item: it begins with a capital, is a single
word, and no item's name has that word. -/
structure IsSuffix (commonWords : List String) (a : Architecture) (w : String) : Prop where
  mem : w ∈ commonWords
  capital : Name.BeginsWithUpper w
  single : Name.words w = [Text.lower w]
  unused : ∀ i ∈ a.items, Text.lower w ∉ Name.words i.name

namespace IsSuffix

variable (h : IsSuffix commonWords a w)

include h

theorem ignored : Ignored commonWords a (Text.lower w) := ⟨⟨w, h.mem, rfl⟩, h.unused⟩

theorem remaining_eq_nil : remaining commonWords a w = [] := by
  rw [remaining, h.single, List.filter_singleton, decide_eq_false (not_not_intro h.ignored)]
  rfl

/-- A suffix changes nothing about what remains of a name. -/
theorem remaining_append {name : String} (hend : Name.EndsInLower name) :
    remaining commonWords a (name ++ w) = remaining commonWords a name := by
  have hwords : remaining commonWords a (name ++ w) =
      remaining commonWords a name ++ remaining commonWords a w := by
    rw [remaining, Name.words_append_capital hend h.capital, List.filter_append]
    rfl
  rw [hwords, h.remaining_eq_nil, List.append_nil]

theorem sharesName (hend : Name.EndsInLower i.name) (hrest : remaining commonWords a i.name ≠ [])
    (hname : u.name = i.name ++ w) : SharesName commonWords a (namesOf u) [i.name] := by
  have hremaining := hname ▸ h.remaining_append hend
  refine ⟨u.name, ?_, i.name, List.mem_singleton_self _, hremaining, hremaining ▸ hrest⟩
  exact List.mem_map_of_mem List.mem_cons_self

end IsSuffix

/-- A unit that is named after an item, with a suffix behind the name, counts fully where the base
leaves it open. All that is asked of the item's name is that it ends in a small letter and that some
word remains of it. -/
theorem suffix_counts_fully {base : Table} {others : List Table} (code : Code)
    (hsealed : ∀ tb ∈ base :: others, tb.isSealed = true) (hi : i.hasSignatures = false)
    (hend : Name.EndsInLower i.name) (hrest : remaining commonWords a i.name ≠ [])
    (hw : IsSuffix commonWords a w) (hname : u.name = i.name ++ w)
    (hopen : base.get ⟨i, u⟩ = .unset) :
    ∃ k x, (Context.ofModels a code).withDependencies (base :: others) = .ok k ∧
      (Heuristic.byCompanions commonWords).score ⟨i, u⟩ k = .ok x ∧ x.value? = some 1 := by
  have hshares := hw.sharesName hend hrest hname
  exact ⟨_, _, Context.withDependencies_eq_ok hsealed,
    score_eq_ok (s := ⟨a, code⟩) (c := ⟨i, u⟩) commonWords hopen,
    value?_extension_of_sharesName hi hshares⟩

open OrderDesk in
/-- A factory next to nothing else, and a base that has no value for it. -/
theorem suffix_counts_fully_orderDesk :
    let factory := CodeUnit.named "f" "OrdersFactory"
    let base : Table := ⟨"paths", [(⟨orders, factory⟩, .unset)], true⟩
    ∃ k x, (Context.ofModels architecture ⟨[factory], [], by decide, by decide⟩).withDependencies
        [base] = .ok k ∧
      (Heuristic.byCompanions defaultCommonWords).score ⟨orders, factory⟩ k = .ok x ∧
      x.value? = some 1 := by
  have hsuffix : IsSuffix defaultCommonWords architecture "Factory" :=
    ⟨by decide, ⟨'F', by decide, by decide +kernel⟩, by decide +kernel, by decide +kernel⟩
  exact suffix_counts_fully _ (by decide) rfl ⟨'s', by decide +kernel, by decide +kernel⟩
    (by decide +kernel) hsuffix rfl (by rfl)

end Companion

end TraceRecovery
