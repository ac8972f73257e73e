import TraceRecovery.Decimal.Shortest

/-!
# Writing a double

The layout of a number's digits: how many zeros, where the point stands and when an exponent is
written. The decisions are the fields of a `Layout`; there is one value for each kind of text that
holds numbers (`plain` for messages, `listed` for lists inside messages, `document` for JSON).
`fixed` writes a given number of places instead.
-/

namespace TraceRecovery.Decimal

/-- How a selected decimal is written. -/
structure Layout where
  /-- Which way a tie between two shortest decimals goes. -/
  tie : Tie
  /-- Whether a number whose leading digit has this exponent is written without exponent. -/
  isPositional : Int → Bool
  /-- Whether a whole number written without exponent ends in `.0`. -/
  keepsPoint : Bool

/-- Numbers in messages never have an exponent, and whole numbers have no point. -/
def plain : Layout := ⟨.up, fun _ => true, false⟩

/-- Numbers in a list inside a message keep a point, and have an exponent below a ten-thousandth
and from ten to the sixteenth on. -/
def listed : Layout := ⟨.up, fun e => -4 ≤ e && e < 16, true⟩

/-- Numbers in a JSON document keep a point, and have an exponent below a hundred-thousandth and
from ten to the sixteenth on. -/
def document : Layout := ⟨.toEven, fun e => -5 ≤ e && e < 16, true⟩

/-- The decimal digits of a natural number. -/
def digitsOf (n : Nat) : List Char := Nat.toDigits 10 n

def zeros (n : Nat) : List Char := List.replicate n '0'

/-- The text of an exponent. -/
def exponentText (e : Int) : List Char :=
  if e < 0 then '-' :: digitsOf e.natAbs else digitsOf e.natAbs

/-- The text of a decimal without its sign. -/
def Layout.digits (l : Layout) (d : Scientific) : List Char :=
  let ds := digitsOf d.digits
  let lead : Int := (ds.length : Int) - 1 + d.exponent
  let point := if l.keepsPoint then ['.', '0'] else []
  if l.isPositional lead then
    if 0 ≤ d.exponent then ds ++ zeros d.exponent.toNat ++ point
    else if lead < 0 then '0' :: '.' :: zeros (-lead - 1).toNat ++ ds
    else ds.take (lead.toNat + 1) ++ '.' :: ds.drop (lead.toNat + 1)
  else
    let fraction := if ds.length ≤ 1 then [] else '.' :: ds.drop 1
    ds.take 1 ++ fraction ++ 'e' :: exponentText lead

/-- The text of a double: its sign, also that of a zero, and its digits. -/
def Layout.chars (l : Layout) (x : Float) : List Char :=
  let sign := if isNegative x then ['-'] else []
  match magnitude x with
  | .notANumber => "NaN".toList
  | .infinite => sign ++ "inf".toList
  | .finite v => sign ++ l.digits (v.shortest l.tie)

/-- The text of a double. -/
def Layout.render (l : Layout) (x : Float) : String := String.ofList (l.chars x)

/-- A double with a fixed number of places: its exact value is rounded, and a tie goes to the even
neighbour. -/
def fixed (places : Nat) (x : Float) : String :=
  let sign := if isNegative x then "-" else ""
  match magnitude x with
  | .notANumber => "NaN"
  | .infinite => sign ++ "inf"
  | .finite v =>
    let (num, den) := v.inUnits (-(places : Int))
    let ds := digitsOf (roundQuotient num den .toEven)
    let padded := zeros (places + 1 - ds.length) ++ ds
    let whole := padded.length - places
    let fraction := if places = 0 then [] else '.' :: padded.drop whole
    sign ++ String.ofList (padded.take whole ++ fraction)

end TraceRecovery.Decimal
