import Mathlib.Algebra.BigOperators.Group.List.Basic
import TraceRecovery.Proofs.Link.Counting
import TraceRecovery.Proofs.Link.Enrollment

/-!
# Pooled runs

The counts of runs are added cell by cell, which makes them a commutative monoid. The scores that
are derived after each addition only depend on the counts so far, so what several runs amount to
together are the scores of the sum of their counts (`Metrics.summed_of_ne_nil`), in whichever order
and groups they are added.

Where two runs concern different pairs, the counts of the links, gold standards and candidates of
both together are the sums of their counts (`GoldStandard.confusion_append`). So pooling the metrics
of the runs gives the metrics of the pooled run (`GoldStandard.microAverage_pools_runs`).
-/

namespace TraceRecovery

/-! ## Sums of counts -/

namespace Confusion

attribute [ext] Confusion

theorem add_def (a b : Confusion) : a + b =
    ⟨a.truePositives + b.truePositives, a.falsePositives + b.falsePositives,
      a.falseNegatives + b.falseNegatives, a.trueNegatives + b.trueNegatives⟩ := rfl

instance : Zero Confusion := ⟨zero⟩

theorem zero_def : (0 : Confusion) = ⟨0, 0, 0, 0⟩ := rfl

instance : AddCommMonoid Confusion where
  add_assoc a b c := by simp only [add_def, Nat.add_assoc]
  zero_add a := by simp only [add_def, zero_def, Nat.zero_add]
  add_zero a := by simp only [add_def, zero_def, Nat.add_zero]
  add_comm a b := by simp only [add_def, Nat.add_comm]
  nsmul := nsmulRec

/-- Each cell of a sum is the sum of the cells. -/
theorem sum_eq (counts : List Confusion) : counts.sum =
    ⟨(counts.map truePositives).sum, (counts.map falsePositives).sum,
      (counts.map falseNegatives).sum, (counts.map trueNegatives).sum⟩ := by
  induction counts with
  | nil => rfl
  | cons c counts ih => rw [List.sum_cons, ih, add_def]; rfl

end Confusion

/-! ## Averages -/

namespace Metrics

variable {α : Type} [ScoreArithmetic α] {runs block rest : List (Metrics α)} {m b : Metrics α}
  {weight : Metrics α → α} {e : TraceError}

/-- The counts of some runs, added up. -/
def counts (runs : List (Metrics α)) : Confusion := (runs.map confusion).sum

omit [ScoreArithmetic α] in
theorem counts_perm {runs' : List (Metrics α)} (h : runs'.Perm runs) : counts runs' = counts runs :=
  (h.map confusion).sum_eq

/-- Deriving the scores after each addition comes to the same as deriving them in the end. -/
theorem foldl_pool (c : Confusion) (runs : List (Metrics α)) :
    runs.foldl pool (ofConfusion c) = ofConfusion (c + counts runs) := by
  induction runs generalizing c with
  | nil => rw [counts, List.map_nil, List.sum_nil, add_zero, List.foldl_nil]
  | cons run runs ih =>
    have hstep : pool (ofConfusion c) run = ofConfusion (c + run.confusion) := rfl
    rw [List.foldl_cons, hstep, ih, counts, counts, List.map_cons, List.sum_cons, add_assoc]

omit [ScoreArithmetic α] in
theorem ensureSome_of_ne_nil (h : runs ≠ []) : ensureSome runs = .ok () := by
  rw [ensureSome, if_neg (by simpa using h)]

theorem summed_of_ne_nil (h : runs ≠ []) : summed runs = .ok (ofConfusion (counts runs)) := by
  have hsum : runs.foldl pool (ofConfusion .zero) = ofConfusion (counts runs) := by
    rw [foldl_pool]
    exact congrArg ofConfusion (zero_add (counts runs))
  rw [summed, ensureSome_of_ne_nil h, hsum]
  rfl

theorem averaged_of_ne_nil (h : runs ≠ []) :
    averaged weight runs = .ok ⟨counts runs, meanScores weight runs⟩ := by
  rw [averaged, summed_of_ne_nil h]
  rfl

/-- Only an empty list of runs has no average. -/
theorem summed_eq_error_iff :
    summed runs = .error e ↔ runs = [] ∧ e = .invalidArgument .nothingToAverage := by
  rcases eq_or_ne runs [] with rfl | h
  · exact ⟨fun he => ⟨rfl, (Except.error.inj he).symm⟩, fun he => congrArg _ he.2.symm⟩
  · exact iff_of_false (by rw [summed_of_ne_nil h]; exact nofun) fun he => h he.1

theorem averaged_eq_error_iff :
    averaged weight runs = .error e ↔ runs = [] ∧ e = .invalidArgument .nothingToAverage := by
  rw [averaged, Fallible.bind_eq_error_iff, summed_eq_error_iff]
  exact or_iff_left fun ⟨_, _, h⟩ => nomatch h

/-- Some runs among others can be replaced by what they amount to together. -/
theorem summed_replace {runs' : List (Metrics α)} (hblock : block ≠ [])
    (h : runs.Perm (block ++ rest)) (h' : runs'.Perm (ofConfusion (counts block) :: rest)) :
    summed runs' = summed runs := by
  have hcounts : counts runs' = counts runs := by
    rw [counts_perm h', counts_perm h]
    simp only [counts, List.map_cons, List.map_append, List.sum_cons, List.sum_append]
    rfl
  have hruns : runs ≠ [] := by
    rintro rfl
    exact hblock (List.append_eq_nil_iff.mp h.nil_eq.symm).1
  have hruns' : runs' ≠ [] := by
    rintro rfl
    exact List.cons_ne_nil _ _ h'.nil_eq.symm
  rw [summed_of_ne_nil hruns, summed_of_ne_nil hruns', hcounts]

end Metrics

/-! ## The pooled run -/

namespace GoldStandard

open Metrics

variable {links₁ links₂ : List TraceLink} {g₁ g₂ : GoldStandard} {c₁ c₂ : Nat}

theorem toFinset_union (g₁ g₂ : GoldStandard) :
    (g₁ ∪ g₂).pairs.toFinset = g₁.pairs.toFinset ∪ g₂.pairs.toFinset := by
  ext p
  simp only [SortedSet.mem_toFinset, mem_union, Finset.mem_union]

theorem concerned_append (links₁ links₂ : List TraceLink) (g₁ g₂ : GoldStandard) :
    concerned (links₁ ++ links₂) (g₁ ∪ g₂) = concerned links₁ g₁ ∪ concerned links₂ g₂ := by
  rw [concerned, List.map_append, List.toFinset_append, toFinset_union,
    Finset.union_union_union_comm]
  rfl

theorem size_found_append (h : Disjoint (concerned links₁ g₁) (concerned links₂ g₂)) :
    (found (links₁ ++ links₂)).size = (found links₁).size + (found links₂).size := by
  simp only [size_found, List.map_append, List.toFinset_append]
  exact Finset.card_union_of_disjoint (h.mono Finset.subset_union_left Finset.subset_union_left)

theorem size_union (h : Disjoint (concerned links₁ g₁) (concerned links₂ g₂)) :
    (g₁ ∪ g₂).size = g₁.size + g₂.size := by
  simp only [size_eq_card, toFinset_union]
  exact Finset.card_union_of_disjoint (h.mono Finset.subset_union_right Finset.subset_union_right)

/-- The counts of two runs that concern different pairs add up to those of both together. -/
theorem confusion_append (h : Disjoint (concerned links₁ g₁) (concerned links₂ g₂))
    (h₁ : (concerned links₁ g₁).card ≤ c₁) (h₂ : (concerned links₂ g₂).card ≤ c₂) :
    confusion (links₁ ++ links₂) (g₁ ∪ g₂) (c₁ + c₂) =
      confusion links₁ g₁ c₁ + confusion links₂ g₂ c₂ := by
  have hboth : (concerned (links₁ ++ links₂) (g₁ ∪ g₂)).card =
      (concerned links₁ g₁).card + (concerned links₂ g₂).card := by
    rw [concerned_append, Finset.card_union_of_disjoint h]
  obtain ⟨hfound, hgold, hall, hleft⟩ := sizes_of_counts (links₁ ++ links₂) (g₁ ∪ g₂) (c₁ + c₂)
  obtain ⟨hfound₁, hgold₁, hall₁, hleft₁⟩ := sizes_of_counts links₁ g₁ c₁
  obtain ⟨hfound₂, hgold₂, hall₂, hleft₂⟩ := sizes_of_counts links₂ g₂ c₂
  rw [size_found_append h] at hfound
  rw [size_union h] at hgold
  ext <;> simp only [Confusion.add_def] <;> omega

/-- Where two runs concern different pairs, and each has no fewer candidates than it concerns pairs,
the micro average of their metrics are the metrics of the pooled run. A micro average has the sums
of the counts of its runs and the scores that follow from these; neither the order of the runs
matters nor whether some of them are replaced by their own micro average. The other averages have
the same counts, and an average fails only if there is no run. -/
theorem microAverage_pools_runs :
    (∀ (links₁ links₂ : List TraceLink) (g₁ g₂ : GoldStandard) (c₁ c₂ : Nat),
      Disjoint (concerned links₁ g₁) (concerned links₂ g₂) →
      (concerned links₁ g₁).card ≤ c₁ → (concerned links₂ g₂).card ≤ c₂ →
      microAverage [g₁.evaluate links₁ c₁, g₂.evaluate links₂ c₂] =
        .ok ((g₁ ∪ g₂).evaluate (links₁ ++ links₂) (c₁ + c₂))) ∧
    (∀ runs : List (Metrics Float), runs ≠ [] → ∃ m, microAverage runs = .ok m ∧
      m.scores = .ofConfusion m.confusion ∧
      m.confusion =
        ⟨(runs.map (·.confusion.truePositives)).sum, (runs.map (·.confusion.falsePositives)).sum,
          (runs.map (·.confusion.falseNegatives)).sum,
          (runs.map (·.confusion.trueNegatives)).sum⟩ ∧
      (∀ runs', runs'.Perm runs → microAverage runs' = .ok m) ∧
      (∀ block rest, block ≠ [] → runs.Perm (block ++ rest) →
        ∃ b, microAverage block = .ok b ∧
          ∀ runs', runs'.Perm (b :: rest) → microAverage runs' = .ok m) ∧
      (∃ a, macroAverage runs = .ok a ∧ a.confusion = m.confusion) ∧
      ∃ a, weightedAverage runs = .ok a ∧ a.confusion = m.confusion) ∧
    ∀ (runs : List (Metrics Float)) (e : TraceError),
      (microAverage runs = .error e ↔ runs = [] ∧ e = .invalidArgument .nothingToAverage) ∧
      (macroAverage runs = .error e ↔ runs = [] ∧ e = .invalidArgument .nothingToAverage) ∧
      (weightedAverage runs = .error e ↔ runs = [] ∧ e = .invalidArgument .nothingToAverage) := by
  refine ⟨fun links₁ links₂ g₁ g₂ c₁ c₂ h h₁ h₂ => ?_, fun runs hruns => ?_, fun runs e =>
    ⟨summed_eq_error_iff, averaged_eq_error_iff, averaged_eq_error_iff⟩⟩
  · rw [microAverage, summed_of_ne_nil (List.cons_ne_nil _ _), evaluate, evaluate, evaluate,
      confusion_append h h₁ h₂, counts, List.map_cons, List.map_cons, List.map_nil, List.sum_cons,
      List.sum_cons, List.sum_nil, add_zero]
    rfl
  · have hm : microAverage runs = .ok (ofConfusion (counts runs)) := summed_of_ne_nil hruns
    refine ⟨ofConfusion (counts runs), hm, rfl, ?_, fun runs' h => ?_, fun block rest hblock h => ?_,
      ⟨_, averaged_of_ne_nil hruns, rfl⟩, _, averaged_of_ne_nil hruns, rfl⟩
    · show counts runs = _
      simp only [counts, Confusion.sum_eq, List.map_map, Function.comp_def]
    · have hruns' : runs' ≠ [] := fun hnil => hruns (by simpa [hnil] using h.symm)
      rw [microAverage, summed_of_ne_nil hruns', counts_perm h]
    · exact ⟨_, summed_of_ne_nil hblock, fun runs' h' => (summed_replace hblock h h').trans hm⟩

/-- Two runs over different items, in the second of which a link comes twice, together with a third
one that has one candidate only. -/
theorem microAverage_pools_runs_of_three :
    let link : String → String → TraceLink := fun item unit => ⟨item, item, unit, unit, 1, "desk"⟩
    let g₁ := ofPairs [⟨"a", "x"⟩, ⟨"a", "z"⟩]
    let g₂ := ofPairs [⟨"b", "x"⟩]
    let first := g₁.evaluate [link "a" "x", link "a" "y"] 6
    let second := g₂.evaluate [link "b" "x", link "b" "x"] 2
    let third : Metrics Float := .ofConfusion ⟨0, 0, 0, 1⟩
    let pooled := (g₁ ∪ g₂).evaluate
      ([link "a" "x", link "a" "y"] ++ [link "b" "x", link "b" "x"]) (6 + 2)
    microAverage [first, second] = .ok pooled ∧ pooled.confusion = ⟨2, 1, 1, 4⟩ ∧
      ∃ m, microAverage [third, first, second] = .ok m ∧ m.confusion = ⟨2, 1, 1, 5⟩ ∧
        m.scores = .ofConfusion ⟨2, 1, 1, 5⟩ ∧
        microAverage [third, pooled] = .ok m ∧ microAverage [second, third, first] = .ok m ∧
        microAverage ([] : List (Metrics Float)) = .error (.invalidArgument .nothingToAverage) := by
  intro link g₁ g₂ first second third pooled
  obtain ⟨hpool, hruns, herror⟩ := microAverage_pools_runs
  have hpooled : microAverage [first, second] = .ok pooled :=
    hpool _ _ g₁ g₂ 6 2 (by decide +kernel) (by decide +kernel) (by decide +kernel)
  obtain ⟨m, hm, hscores, hcounts, hperm, hreplace, -⟩ :=
    hruns [third, first, second] (List.cons_ne_nil _ _)
  have hcells : m.confusion = ⟨2, 1, 1, 5⟩ := hcounts.trans (by decide +kernel)
  obtain ⟨b, hb, hblock⟩ := hreplace [first, second] [third] (List.cons_ne_nil _ _)
    (List.perm_append_singleton third [first, second]).symm
  obtain rfl : b = pooled := Except.ok.inj (hb.symm.trans hpooled)
  exact ⟨hpooled, by decide +kernel, m, hm, hcells, hcells ▸ hscores, hblock _ (.swap _ _ _),
    hperm _ (List.perm_append_singleton second [third, first]).symm,
    (herror [] _).1.mpr ⟨rfl, rfl⟩⟩

end GoldStandard

end TraceRecovery
