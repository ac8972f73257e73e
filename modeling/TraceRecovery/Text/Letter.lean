import TraceRecovery.Text.AlphabetData
import TraceRecovery.Text.CaseData
import TraceRecovery.Text.LowerData

/-!
# Letters, digits and lower case

The classes of characters that names are split by, and the lower-case form of a text. Two
characters have a lower-case form that is not a single character fixed in advance: U+0130 becomes
two characters, and a capital sigma becomes a final sigma at the end of a word, which
`lowerChars` sees from the characters around it.
-/

namespace TraceRecovery.Text

/-- Whether a character is a letter. -/
def isAlphabetic (c : Char) : Bool := covers alphabeticRuns c.toNat

/-- Whether a character is a digit or stands for a number. -/
def isNumeric (c : Char) : Bool := covers numericRuns c.toNat

/-- Whether a character can be part of a word. -/
def isAlphanumeric (c : Char) : Bool := isAlphabetic c || isNumeric c

/-- Whether a character is a lower-case letter. -/
def isLowercase (c : Char) : Bool := covers lowercaseRuns c.toNat

/-- Whether a character is an upper-case letter. -/
def isUppercase (c : Char) : Bool := covers uppercaseRuns c.toNat

/-- Whether a character has a case: it is a lower-case, an upper-case or a title-case letter. -/
def isCased (c : Char) : Bool := isLowercase c || isUppercase c || covers titlecaseRuns c.toNat

/-- Whether a character does not interrupt a word when the end of the word is looked for. -/
def isCaseIgnorable (c : Char) : Bool := covers caseIgnorableRuns c.toNat

/-- The code point of the lower-case form, by an ascending list of shifts. -/
def shifted : List Shift → Nat → Nat
  | [], n => n
  | s :: rest, n =>
    if n < s.run.first then n
    else if s.run.has n then ((n : Int) + s.distance).toNat
    else shifted rest n

/-- The lower-case form of a character that stands alone. -/
def lowerChar (c : Char) : List Char :=
  if c = '\u0130' then ['i', '\u0307'] else [Char.ofNat (shifted lowerShifts c.toNat)]

/-- Whether a cased character comes next, after any case-ignorable ones. -/
def casedNext (s : List Char) : Bool := (s.dropWhile isCaseIgnorable).head?.any isCased

/-- The lower-case form of `rest`, which follows the reversed text `before`. -/
def lowerAfter (before : List Char) : List Char → List Char
  | [] => []
  | c :: rest =>
    let here :=
      if c = 'Σ' then [if casedNext before && !casedNext rest then 'ς' else 'σ'] else lowerChar c
    here ++ lowerAfter (c :: before) rest

/-- The lower-case form of a text. -/
def lowerChars (s : List Char) : List Char := lowerAfter [] s

/-- The lower-case form of a string. -/
def lower (s : String) : String := String.ofList (lowerChars s.toList)

end TraceRecovery.Text
