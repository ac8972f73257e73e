import TraceRecovery.Proofs.Link.Raising

/-!
# Counts as sizes of sets

Links are a list, in which a pair of ids may come several times, and a gold standard is a set. The
four counts only depend on the set of pairs that the links connect (`evaluate_congr`), and are the
sizes of its intersection with and its differences from the gold standard
(`GoldStandard.counts_are_cardinalities`). Two of them are computed as differences of sizes, which
are exact: with the count that is taken away they add up to all that is found or correct
(`sizes_of_counts`).
-/

namespace TraceRecovery

namespace GoldStandard

variable {links links' : List TraceLink} {g : GoldStandard} {candidates : Nat}

theorem mem_found {p : LinkPair} : p ∈ found links ↔ p ∈ links.map TraceLink.pair :=
  SortedSet.mem_ofList

/-- Links that connect the same pairs have the same metrics. -/
theorem evaluate_congr
    (h : (links'.map TraceLink.pair).toFinset = (links.map TraceLink.pair).toFinset) :
    g.evaluate links' candidates = g.evaluate links candidates := by
  have hfound : found links' = found links := SortedSet.ext_mem fun p => by
    rw [mem_found, mem_found, ← List.mem_toFinset, h, List.mem_toFinset]
  rw [evaluate, evaluate, confusion, confusion, hfound]

/-- The pairs that links connect or a gold standard has. -/
def concerned (links : List TraceLink) (g : GoldStandard) : Finset LinkPair :=
  (links.map TraceLink.pair).toFinset ∪ g.pairs.toFinset

theorem size_found (links : List TraceLink) :
    (found links).size = (links.map TraceLink.pair).toFinset.card := by
  rw [← found_toFinset, SortedSet.card_toFinset]

theorem size_eq_card (g : GoldStandard) : g.size = g.pairs.toFinset.card :=
  SortedSet.card_toFinset.symm

/-- How many pairs are found, are correct, and are either of both, by the four counts. -/
theorem sizes_of_counts (links : List TraceLink) (g : GoldStandard) (candidates : Nat) :
    let counts := confusion links g candidates
    counts.truePositives + counts.falsePositives = (found links).size ∧
      counts.truePositives + counts.falseNegatives = g.size ∧
      counts.truePositives + counts.falsePositives + counts.falseNegatives =
        (concerned links g).card ∧
      counts.trueNegatives = candidates - (concerned links g).card := by
  obtain ⟨hfound, hgold, hunion⟩ := card_parts (found links).toFinset g.pairs.toFinset
  rw [confusion_eq, concerned, ← found_toFinset, size_found, size_eq_card, ← found_toFinset]
  exact ⟨hfound, hgold, hunion, rfl⟩

/-- The counts of some links are the sizes of the sets that the pairs they connect make up with the
gold standard: those in both, those in one only, and the candidates in neither, or 0 if there are
more pairs than candidates. No difference of sizes in between is cut off at 0. The counts sum up to
the number of candidates or of pairs, whichever is greater, and nothing about the links matters but
which pairs they connect. -/
theorem counts_are_cardinalities (links : List TraceLink) (g : GoldStandard) (candidates : Nat) :
    let F := (links.map TraceLink.pair).toFinset
    let G := g.pairs.toFinset
    let counts := (g.evaluate links candidates).confusion
    counts.truePositives = (F ∩ G).card ∧
      counts.falsePositives = (F \ G).card ∧
      counts.falseNegatives = (G \ F).card ∧
      (counts.trueNegatives : Int) = max ((candidates : Int) - ((F ∪ G).card : Int)) 0 ∧
      counts.truePositives ≤ (found links).size ∧
      counts.truePositives ≤ g.size ∧
      counts.total = max candidates (F ∪ G).card ∧
      ∀ links' : List TraceLink, (links'.map TraceLink.pair).toFinset = F →
        g.evaluate links' candidates = g.evaluate links candidates := by
  intro F G counts
  have hcounts : counts = ⟨(F ∩ G).card, (F \ G).card, (G \ F).card,
      candidates - (F ∪ G).card⟩ := by
    have h := confusion_eq links g candidates
    rwa [found_toFinset] at h
  have hsizes := sizes_of_counts links g candidates
  have hfound : counts.truePositives + counts.falsePositives = (found links).size := hsizes.1
  have hgold : counts.truePositives + counts.falseNegatives = g.size := hsizes.2.1
  have htotal : counts.total = max candidates (F ∪ G).card := by
    have h := total_confusion links g candidates
    rwa [found_toFinset] at h
  refine ⟨by rw [hcounts], by rw [hcounts], by rw [hcounts], ?_, by omega, by omega, htotal,
    fun links' h => evaluate_congr h⟩
  have hleft : counts.trueNegatives = candidates - (F ∪ G).card := by rw [hcounts]
  omega

/-- Of two links, one of which comes twice, one is correct, and a further pair would be. With a
single candidate no candidate is left over. -/
theorem counts_are_cardinalities_of_two :
    let link : String → Float → TraceLink := fun unit v => ⟨"a", "Orders", unit, unit, v, "desk"⟩
    let g := ofPairs [⟨"a", "x"⟩, ⟨"a", "z"⟩]
    let links := [link "x" 0.5, link "y" 1, link "x" 0.75]
    (g.evaluate links 6).confusion = ⟨1, 1, 1, 3⟩ ∧
      (g.evaluate links 1).confusion.total = 3 ∧
      g.evaluate [link "y" 0.25, link "x" 1] 6 = g.evaluate links 6 := by
  intro link g links
  obtain ⟨-, -, -, -, -, -, -, hsame⟩ := counts_are_cardinalities links g 6
  obtain ⟨-, -, -, -, -, -, htotal, -⟩ := counts_are_cardinalities links g 1
  exact ⟨by decide +kernel, htotal.trans (by decide +kernel), hsame _ (by decide)⟩

end GoldStandard

end TraceRecovery
