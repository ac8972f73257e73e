import TraceRecovery.Decimal.Reader

/-!
# Numbers in JSON notation

`spanNumber` finds the number at the start of a text; `floatOf?` and `wordOf?` give its value. A
number that is read as a double keeps as many leading digits as fit into 64 bits, and the double
next to these is scaled by a power of ten in a single operation. So a number with at most fifteen
digits is read exactly, and one with more may come out next to the nearest double. A number that
is too large for a double has no value.
-/

namespace TraceRecovery.Json

open Decimal (spanDigits valueOf)

/-- One digit or more at the start of a text. -/
def spanDigits1 (s : List Char) : Option (List Char × List Char) :=
  match spanDigits s with
  | ([], _) => none
  | found => some found

/-- The digits before the point: a zero stands alone. -/
def spanWhole : List Char → Option (List Char × List Char)
  | '0' :: rest => if (rest.head?.any Char.isDigit) then none else some (['0'], rest)
  | s => spanDigits1 s

/-- The point and the digits behind it, if there is a point. -/
def spanFraction : List Char → Option (List Char × List Char)
  | '.' :: rest => (spanDigits1 rest).map fun (ds, after) => ('.' :: ds, after)
  | s => some ([], s)

/-- The exponent with its mark, if there is one. -/
def spanExponent : List Char → Option (List Char × List Char)
  | c :: rest =>
    if c = 'e' ∨ c = 'E' then
      match rest with
      | '+' :: r => (spanDigits1 r).map fun (ds, after) => (c :: '+' :: ds, after)
      | '-' :: r => (spanDigits1 r).map fun (ds, after) => (c :: '-' :: ds, after)
      | r => (spanDigits1 r).map fun (ds, after) => (c :: ds, after)
    else some ([], c :: rest)
  | [] => some ([], [])

/-- The number at the start of a text, and what follows it. -/
def spanNumber (s : List Char) : Option (List Char × List Char) := do
  let (sign, s) := match s with
    | '-' :: rest => (['-'], rest)
    | rest => ([], rest)
  let (whole, s) ← spanWhole s
  let (fraction, s) ← spanFraction s
  let (exponent, s) ← spanExponent s
  some (sign ++ whole ++ fraction ++ exponent, s)

/-- The leading digits that are kept, and the power of ten by which they are scaled. -/
structure Scaled where
  significand : Nat
  exponent : Int

/-- Adds a digit if the significand still fits into 64 bits. -/
def Scaled.push? (s : Scaled) (d : Char) : Option Scaled :=
  let next := 10 * s.significand + (d.toNat - 48)
  if next < Nat.pow 2 64 then some { s with significand := next } else none

/-- Adds the digits before the point. Once a digit does not fit, it and all that follow only
scale. -/
def Scaled.pushWhole (s : Scaled) : List Char → Scaled
  | [] => s
  | d :: ds =>
    match s.push? d with
    | some next => next.pushWhole ds
    | none => { s with exponent := s.exponent + (ds.length + 1) }

/-- Adds the digits behind the point. Once a digit does not fit, it and all that follow are
dropped. -/
def Scaled.pushFraction (s : Scaled) : List Char → Scaled
  | [] => s
  | d :: ds =>
    match s.push? d with
    | some next => { next with exponent := next.exponent - 1 }.pushFraction ds
    | none => s

/-- Multiplies or divides by powers of ten of at most 308 at a time. Nothing is left to divide
after a few steps; a product beyond the doubles has no value. -/
def scaleBy (x : Float) (e : Int) : Nat → Option Float
  | 0 => some x
  | steps + 1 =>
    if 308 < e then if x == 0 then some x else none
    else if 0 ≤ e then
      let y := x * Float.ofScientific 1 false e.natAbs
      if y.isInf then none else some y
    else if -308 ≤ e then some (x / Float.ofScientific 1 false e.natAbs)
    else if x == 0 then some x
    else scaleBy (x / Float.ofScientific 1 false 308) (e + 308) steps

/-- The value of the text of an exponent with its mark; zero without one. -/
def exponentOf : List Char → Int
  | _ :: '-' :: ds => -(valueOf 0 ds : Int)
  | _ :: '+' :: ds => valueOf 0 ds
  | _ :: ds => valueOf 0 ds
  | [] => 0

/-- The double that a number stands for. -/
def floatOf? (literal : List Char) : Option Float :=
  let (negative, s) := match literal with
    | '-' :: rest => (true, rest)
    | rest => (false, rest)
  let (whole, s) := spanDigits s
  let (fraction, s) := match s with
    | '.' :: rest => spanDigits rest
    | rest => ([], rest)
  let scaled := ((Scaled.mk 0 0).pushWhole whole).pushFraction fraction
  (scaleBy (Float.ofNat scaled.significand) (scaled.exponent + exponentOf s) 8).map fun x =>
    if negative then -x else x

/-- The natural number of 64 bits that a number without sign, point and exponent stands for. -/
def wordOf? (literal : List Char) : Option Nat :=
  if literal.all Char.isDigit then
    let n := valueOf 0 literal
    if n < Nat.pow 2 64 then some n else none
  else none

end TraceRecovery.Json
