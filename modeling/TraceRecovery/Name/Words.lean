import TraceRecovery.Text.Letter

/-!
# Words of an identifier

An identifier is read as a list of words: `OrderServiceImpl`, `order_service_impl` and
`order-service-impl` all consist of the words `order`, `service` and `impl`. It is read from left to
right, character by character. A word ends at every character that is neither a letter nor a digit,
and between two adjacent characters where `breaksBetween` says so: at a change from lower to upper
case, at a change between letters and digits, and before the last capital of several when a small
letter follows it.
-/

namespace TraceRecovery.Name

open Text

/-- Whether a word ends between the adjacent characters `a` and `b`, given what follows `b`. -/
def breaksBetween (a b : Char) (next? : Option Char) : Bool :=
  (isLowercase a && isUppercase b) ||
    isAlphabetic a != isAlphabetic b ||
    (isUppercase a && isUppercase b && next?.any isLowercase)

/-- How far a name has been read: the words that have ended, and the characters of the one that
has not. -/
structure WordReader where
  ended : List String
  current : List Char

namespace WordReader

/-- Nothing has been read yet. -/
def start : WordReader := ⟨[], []⟩

/-- Ends the current word, if there is one. It is kept in lower case. -/
def flush (r : WordReader) : WordReader :=
  if r.current.isEmpty then r else ⟨r.ended ++ [String.ofList (lowerChars r.current)], []⟩

/-- Reads a character, given what follows it. -/
def read (r : WordReader) (c : Char) (next? : Option Char) : WordReader :=
  if isAlphanumeric c then
    let r := if r.current.getLast?.any fun a => breaksBetween a c next? then r.flush else r
    { r with current := r.current ++ [c] }
  else r.flush

/-- Reads some characters from left to right. -/
def readAll (r : WordReader) : List Char → WordReader
  | [] => r
  | c :: rest => (r.read c rest.head?).readAll rest

variable {r : WordReader} {c : Char} {next? : Option Char}

theorem flush_of_nil (h : r.current = []) : r.flush = r := if_pos (List.isEmpty_iff.mpr h)

theorem flush_of_ne_nil (h : r.current ≠ []) :
    r.flush = ⟨r.ended ++ [String.ofList (lowerChars r.current)], []⟩ :=
  if_neg (mt List.isEmpty_iff.mp h)

@[simp] theorem current_flush : r.flush.current = [] := by
  by_cases h : r.current = []
  · rw [flush_of_nil h, h]
  · rw [flush_of_ne_nil h]

/-- A separator ends the current word. -/
theorem read_separator (h : isAlphanumeric c = false) : r.read c next? = r.flush := by
  rw [read, if_neg (Bool.eq_false_iff.mp h)]

/-- A letter or digit begins a word where the current one ends in front of it. -/
theorem read_break (h : isAlphanumeric c = true)
    (hb : (r.current.getLast?.any fun a => breaksBetween a c next?) = true) :
    r.read c next? = ⟨r.flush.ended, [c]⟩ := by
  simp only [read, if_pos h, if_pos hb, current_flush, List.nil_append]

/-- Otherwise it joins the current word. -/
theorem read_join (h : isAlphanumeric c = true)
    (hb : (r.current.getLast?.any fun a => breaksBetween a c next?) = false) :
    r.read c next? = ⟨r.ended, r.current ++ [c]⟩ := by
  simp only [read, if_pos h, hb, Bool.false_eq_true, if_false]

end WordReader

/-- The words of a name, in lower case. -/
def words (name : String) : List String := (WordReader.start.readAll name.toList).flush.ended

/-- The words of a name without those that `dropped` accepts. -/
def wordsExcept (dropped : String → Bool) (name : String) : List String :=
  (words name).filter fun w => !dropped w

end TraceRecovery.Name
