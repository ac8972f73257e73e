import TraceRecovery.Decimal.Reader
import TraceRecovery.Text.Blank
import TraceRecovery.Time.Calendar

/-!
# Points in time

A point in time is written as a date and a time of day in universal time, with as many places of
the second as it has, in groups of three. It is read from any date and time with an offset from
universal time: white space may stand in front of every number, after the numbers of the date and
the hour and minute, and around the offset. A second numbered 60 is a leap second, which counts as
part of the second before it.
-/

namespace TraceRecovery.Time

open Decimal (valueOf spanDigits)
open Text (isBlank)

/-- A point in time. -/
structure Instant where
  /-- The seconds since the beginning of 1970 in universal time. -/
  seconds : Int
  /-- The billionths of a second on top; a billion and more within a leap second. -/
  nanos : Nat
deriving DecidableEq, Repr

namespace Instant

/-! ## Writing -/

/-- A number with leading zeros up to a width. -/
def padded (width n : Nat) : String :=
  let ds := Nat.toDigits 10 n
  String.ofList (List.replicate (width - ds.length) '0' ++ ds)

/-- The text of a year: four digits, with a sign before and after the years of four digits. -/
def yearText (year : Int) : String :=
  if 0 ≤ year ∧ year ≤ 9999 then padded 4 year.toNat
  else if year < 0 then "-" ++ padded 4 year.natAbs
  else "+" ++ padded 4 year.natAbs

/-- The text of a part of a second: no places, or three, six or nine. -/
def fractionText (nanos : Nat) : String :=
  if nanos = 0 then ""
  else if nanos % 1000000 = 0 then "." ++ padded 3 (nanos / 1000000)
  else if nanos % 1000 = 0 then "." ++ padded 6 (nanos / 1000)
  else "." ++ padded 9 nanos

/-- The text of a point in time, in universal time. -/
def render (t : Instant) : String :=
  let d := Date.ofDays (t.seconds / 86400)
  let ofDay := (t.seconds % 86400).toNat
  let second := ofDay % 60 + t.nanos / 1000000000
  yearText d.year ++ "-" ++ padded 2 d.month ++ "-" ++ padded 2 d.day ++ "T" ++
    padded 2 (ofDay / 3600) ++ ":" ++ padded 2 (ofDay / 60 % 60) ++ ":" ++ padded 2 second ++
    fractionText (t.nanos % 1000000000) ++ "Z"

/-! ## Reading -/

/-- A text without the white space at its start. -/
def skipBlank (s : List Char) : List Char := s.dropWhile isBlank

/-- A number of at most `width` digits, with white space in front of it. -/
def readNumber (width : Nat) (s : List Char) : Option (Nat × List Char) :=
  let s := skipBlank s
  let ds := (spanDigits s).1.take width
  if ds.isEmpty then none else some (valueOf 0 ds, s.drop ds.length)

/-- A year: four digits at most, or a sign and any number of digits. -/
def readYear (s : List Char) : Option (Int × List Char) :=
  let signed (rest : List Char) : Option (Nat × List Char) :=
    let (ds, after) := spanDigits rest
    if ds.isEmpty then none else some (valueOf 0 ds, after)
  match skipBlank s with
  | '-' :: rest => (signed rest).map fun (n, after) => (-(n : Int), after)
  | '+' :: rest => (signed rest).map fun (n, after) => ((n : Int), after)
  | s => (readNumber 4 s).map fun (n, after) => ((n : Int), after)

/-- A separator, with white space in front of it. -/
def readMark (mark : Char) (s : List Char) : Option (List Char) :=
  match skipBlank s with
  | c :: rest => if c = mark then some rest else none
  | [] => none

/-- The point and the digits of a part of a second, in billionths, if there is a point. Digits
behind the ninth are dropped. -/
def readFraction : List Char → Option (Nat × List Char)
  | '.' :: s =>
    let (ds, after) := spanDigits s
    if ds.isEmpty then none
    else
      let kept := ds.take 9
      some (valueOf 0 kept * Nat.pow 10 (9 - kept.length), after)
  | s => some (0, s)

/-- An offset in seconds: `Z`, `UTC`, or a sign, two digits of hours and two of minutes, with colons
and white space between the two if there are any. -/
def readOffset (s : List Char) : Option (Int × List Char) :=
  if ((s.take 3).map Char.toUpper) = ['U', 'T', 'C'] then some (0, s.drop 3)
  else match s with
    | 'Z' :: rest | 'z' :: rest => some (0, rest)
    | sign :: h₁ :: h₂ :: rest =>
      if (sign = '+' ∨ sign = '-' ∨ sign = '\u2212') ∧ h₁.isDigit ∧ h₂.isDigit then
        match rest.dropWhile fun c => c == ':' || isBlank c with
        | m₁ :: m₂ :: after =>
          if m₁.isDigit ∧ m₂.isDigit ∧ valueOf 0 [m₁, m₂] < 60 then
            let size : Int := valueOf 0 [h₁, h₂] * 3600 + valueOf 0 [m₁, m₂] * 60
            some (if sign = '+' then size else -size, after)
          else none
        | _ => none
      else none
    | _ => none

/-- Whether a day is one that a point in time can have. -/
def isInRange (d : Date) : Bool := -262143 ≤ d.year && d.year ≤ 262142

/-- The point in time at which clocks with an offset show a date and a time of day. -/
def ofLocal? (d : Date) (hour minute second nanos : Nat) (offset : Int) : Option Instant :=
  if isInRange d && d.isValid && hour < 24 && minute < 60 && second ≤ 60 && offset.natAbs < 86400
  then
    let leap := if second = 60 then 1 else 0
    let seconds : Int :=
      d.toDays * 86400 + (hour * 3600 + minute * 60 + (second - leap) : Nat) - offset
    if isInRange (Date.ofDays (seconds / 86400)) then some ⟨seconds, leap * 1000000000 + nanos⟩
    else none
  else none

/-- Reads a point in time from a date and a time of day with an offset. -/
def ofChars? (s : List Char) : Option Instant := do
  let (year, s) ← readYear s
  let s ← readMark '-' s
  let (month, s) ← readNumber 2 s
  let s ← readMark '-' s
  let (day, s) ← readNumber 2 s
  let s ← match s with
    | 'T' :: rest | 't' :: rest | ' ' :: rest => some rest
    | _ => none
  let (hour, s) ← readNumber 2 s
  let s ← readMark ':' s
  let (minute, s) ← readNumber 2 s
  let s ← readMark ':' s
  let (second, s) ← readNumber 2 s
  let (nanos, s) ← readFraction s
  let (offset, s) ← readOffset (skipBlank s)
  if (skipBlank s).isEmpty then ofLocal? ⟨year, month, day⟩ hour minute second nanos offset
  else none

/-- Reads a point in time. -/
def ofText? (s : String) : Option Instant := ofChars? s.toList

end Instant

end TraceRecovery.Time
