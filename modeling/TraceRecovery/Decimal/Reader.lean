/-!
# Reading numbers

The two kinds of numbers that settings may hold as text: doubles in decimal notation, read to the
nearest double, and naturals of 64 bits. The readers see the whole text: blanks, separators and
bare exponents are refused. Digits are those of ASCII.
-/

namespace TraceRecovery.Decimal

/-- The number that a list of digits stands for, behind the digits of `start`. -/
def valueOf (start : Nat) (ds : List Char) : Nat :=
  ds.foldl (fun n c => 10 * n + (c.toNat - 48)) start

/-- The digits at the start of a text, and the rest. -/
def spanDigits (s : List Char) : List Char × List Char := s.span Char.isDigit

/-- The double nearest to `m * 10 ^ e`. Beyond four hundred places in either direction nothing but
zero and infinity is left, so such exponents are not expanded. -/
def nearest (m : Nat) (e : Int) : Float :=
  let size := ((Nat.toDigits 10 m).length : Int) + e
  if m = 0 ∨ size < -400 then 0
  else if 400 < size then Float.ofScientific 1 false 400
  else Float.ofScientific m (e < 0) e.natAbs

/-- The exponent behind the digits of a decimal number, up to the end of the text. -/
def exponent? : List Char → Option Int
  | [] => some 0
  | c :: rest =>
    if c = 'e' ∨ c = 'E' then
      let (negative, body) := match rest with
        | '-' :: r => (true, r)
        | '+' :: r => (false, r)
        | r => (false, r)
      if body.isEmpty ∨ !body.all Char.isDigit then none
      else some (if negative then -(valueOf 0 body : Int) else valueOf 0 body)
    else none

/-- A decimal number without sign: digits with a point among, before or behind them, and an
exponent if there is one. -/
def unsigned? (s : List Char) : Option Float :=
  let (whole, rest) := spanDigits s
  let (fraction, rest) := match rest with
    | '.' :: r => spanDigits r
    | r => ([], r)
  if whole.isEmpty && fraction.isEmpty then none
  else (exponent? rest).map fun e =>
    nearest (valueOf (valueOf 0 whole) fraction) (e - fraction.length)

/-- The sign in front of a number, if there is one. -/
def splitSign : List Char → Bool × List Char
  | '-' :: rest => (true, rest)
  | '+' :: rest => (false, rest)
  | s => (false, s)

/-- Reads a double: a decimal number, `inf`, `infinity` or `nan` in any case, with or without a
sign. -/
def float? (s : String) : Option Float :=
  let (negative, body) := splitSign s.toList
  let magnitude := match String.ofList (body.map Char.toLower) with
    | "inf" | "infinity" => some (1.0 / 0.0)
    | "nan" => some (0.0 / 0.0)
    | _ => unsigned? body
  magnitude.map fun x => if negative then -x else x

/-- Reads a natural number below `2 ^ 64`, with or without a plus sign. -/
def word? (s : String) : Option Nat :=
  let body := match s.toList with
    | '+' :: rest => rest
    | cs => cs
  if body.isEmpty || !body.all Char.isDigit then none
  else
    let n := valueOf 0 body
    if n < Nat.pow 2 64 then some n else none

end TraceRecovery.Decimal
