/-!
# Pieces of a text

Cutting a text at every occurrence of a character, or at the first one only, and joining pieces.
`cutOnce_append` says which occurrence is the first.
-/

namespace TraceRecovery.Text

/-- The pieces between the occurrences of a character: one more than there are occurrences. -/
def cutAt (sep : Char) : List Char → List (List Char)
  | [] => [[]]
  | c :: rest =>
    if c = sep then [] :: cutAt sep rest
    else match cutAt sep rest with
      | piece :: pieces => (c :: piece) :: pieces
      | [] => [[c]]

/-- What stands before and after the first occurrence of a character. -/
def cutOnce (sep : Char) : List Char → Option (List Char × List Char)
  | [] => none
  | c :: rest =>
    if c = sep then some ([], rest)
    else (cutOnce sep rest).map fun (before, after) => (c :: before, after)

/-- The pieces with a separator between each two of them. -/
def join (sep : String) : List String → String
  | [] => ""
  | [s] => s
  | s :: rest => s ++ sep ++ join sep rest

/-- The first separator is the one behind a text without any. -/
theorem cutOnce_append {sep : Char} {s : List Char} (h : sep ∉ s) (t : List Char) :
    cutOnce sep (s ++ sep :: t) = some (s, t) := by
  induction s with
  | nil => simp [cutOnce]
  | cons c r ih =>
    simp only [List.mem_cons, not_or] at h
    simp [cutOnce, Ne.symm h.1, ih h.2]

end TraceRecovery.Text
