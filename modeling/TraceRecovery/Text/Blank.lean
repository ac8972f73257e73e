import TraceRecovery.Text.Run

/-!
# White space

The code points with the Unicode property White_Space, and the removal of white space from both
ends of a text. `trimChars_of_no_blank_ends` says that a text whose ends are no white space stays as
it is; `Trimmed` strings are such texts.
-/

namespace TraceRecovery.Text

/-- The code points with the property White_Space, ascending. -/
def blankRuns : List Run :=
  [⟨0x09, 0x0d, 1⟩, ⟨0x20, 0x20, 1⟩, ⟨0x85, 0x85, 1⟩, ⟨0xa0, 0xa0, 1⟩, ⟨0x1680, 0x1680, 1⟩,
   ⟨0x2000, 0x200a, 1⟩, ⟨0x2028, 0x2029, 1⟩, ⟨0x202f, 0x202f, 1⟩, ⟨0x205f, 0x205f, 1⟩,
   ⟨0x3000, 0x3000, 1⟩]

/-- Whether a character is white space. -/
def isBlank (c : Char) : Bool := covers blankRuns c.toNat

/-- A text without the white space at its end. -/
def trimEnd (s : List Char) : List Char := (s.reverse.dropWhile isBlank).reverse

/-- A text without the white space at both ends. -/
def trimChars (s : List Char) : List Char := trimEnd (s.dropWhile isBlank)

/-- A string without the white space at both ends. -/
def trim (s : String) : String := String.ofList (trimChars s.toList)

/-- A text that neither begins nor ends with white space stays as it is. -/
theorem trimChars_of_no_blank_ends {s : List Char} (hh : ∀ c ∈ s.head?, isBlank c = false)
    (hl : ∀ c ∈ s.getLast?, isBlank c = false) : trimChars s = s := by
  have h1 : s.dropWhile isBlank = s := by
    cases s with
    | nil => rfl
    | cons c r => simp [hh c (by simp)]
  rw [trimChars, h1, trimEnd]
  have h2 : s.reverse.dropWhile isBlank = s.reverse := by
    cases h : s.reverse with
    | nil => rfl
    | cons c r =>
      have : isBlank c = false := hl c (by
        have := congrArg List.head? h
        simpa [List.head?_reverse] using this)
      simp [this]
  rw [h2, List.reverse_reverse]

/-- A string neither begins nor ends with white space. -/
def Trimmed (s : String) : Prop :=
  (∀ c ∈ s.toList.head?, isBlank c = false) ∧ ∀ c ∈ s.toList.getLast?, isBlank c = false

instance (s : String) : Decidable (Trimmed s) :=
  haveI := fun o : Option Char => o.decidableForallMem (p := fun c => isBlank c = false)
  inferInstanceAs (Decidable (_ ∧ _))

theorem Trimmed.trim_eq {s : String} (h : Trimmed s) : trim s = s := by
  rw [trim, trimChars_of_no_blank_ends h.1 h.2, String.ofList_toList]

end TraceRecovery.Text
