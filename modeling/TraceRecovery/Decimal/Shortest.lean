import TraceRecovery.Decimal.Binary

/-!
# The fewest digits that identify a double

Among the decimals that round to a given double, `Binary.shortest` selects one with the fewest
digits, and of these the nearest. It tries one digit, two digits and so on: for each number of
digits only the two decimals next to the exact value can qualify, and `Binary.readsBack` tests
them in exact arithmetic. Seventeen digits always suffice.
-/

namespace TraceRecovery.Decimal

/-- The decimal `digits * 10 ^ exponent`. -/
structure Scientific where
  digits : Nat
  exponent : Int
deriving DecidableEq, Repr

/-- Compares `a * 10 ^ i` with `n * 2 ^ j`, exactly. -/
def compareScaled (a : Nat) (i : Int) (n : Nat) (j : Int) : Ordering :=
  compare (a * Nat.pow 10 i.toNat * Nat.pow 2 (-j).toNat)
    (n * Nat.pow 2 j.toNat * Nat.pow 10 (-i).toNat)

/-- Whether a decimal lies among the reals that round to the value, to nearest with ties to even:
from halfway to the double below to halfway to the double above, ends included for even `m`. -/
def Binary.readsBack (x : Binary) (d : Scientific) : Bool :=
  let low := if x.narrowBelow then 4 * x.m - 1 else 4 * x.m - 2
  let belowLow := compareScaled d.digits d.exponent low (x.q - 2)
  let aboveHigh := compareScaled d.digits d.exponent (4 * x.m + 2) (x.q - 2)
  let ends := x.m % 2 == 0
  (belowLow == .gt || (ends && belowLow == .eq)) && (aboveHigh == .lt || (ends && aboveHigh == .eq))

/-- Whether the value is below `10 ^ k`. -/
def Binary.belowPower (x : Binary) (k : Int) : Bool := compareScaled 1 k x.m x.q == .gt

/-- The least `k` from `low` on, within a few steps, such that the value is below `10 ^ k`. -/
def Binary.leastPower (x : Binary) (low : Int) : Nat → Int
  | 0 => low
  | steps + 1 => if x.belowPower low then low else x.leastPower (low + 1) steps

/-- The number of digits before the point of a positive value, or minus the number of zeros right
behind it: the least `k` with the value below `10 ^ k`. The start is estimated from below by the
binary logarithm. -/
def Binary.scale (x : Binary) : Int :=
  x.leastPower (((x.m.log2 : Int) + x.q) * 30103 / 100000 - 1) 5

/-- The value as a quotient of naturals in units of `10 ^ e`. -/
def Binary.inUnits (x : Binary) (e : Int) : Nat × Nat :=
  (x.m * Nat.pow 2 x.q.toNat * Nat.pow 10 (-e).toNat, Nat.pow 2 (-x.q).toNat * Nat.pow 10 e.toNat)

/-- The decimal with `count` digits that is nearest to the value among those that round to it. -/
def Binary.withDigits (x : Binary) (tie : Tie) (k : Int) (count : Nat) : Option Scientific :=
  let e := k - count
  let (num, den) := x.inUnits e
  let below : Scientific := ⟨num / den, e⟩
  let above : Scientific := ⟨num / den + 1, e⟩
  match x.readsBack below, x.readsBack above with
  | true, true => some ⟨roundQuotient num den tie, e⟩
  | true, false => some below
  | false, true => some above
  | false, false => none

/-- A decimal without the zeros at its end; `fuel` bounds the number of zeros. -/
def stripZeros : Nat → Scientific → Scientific
  | 0, d => d
  | fuel + 1, d =>
    if d.digits % 10 = 0 then stripZeros fuel ⟨d.digits / 10, d.exponent + 1⟩ else d

/-- The decimal that is printed for a value. -/
def Binary.shortest (x : Binary) (tie : Tie) : Scientific :=
  if x.m = 0 then ⟨0, 0⟩
  else
    let k := x.scale
    match (List.range 17).findSome? fun n => x.withDigits tie k (n + 1) with
    | some d => stripZeros 17 d
    | none => ⟨x.m * Nat.pow 2 x.q.toNat * Nat.pow 5 (-x.q).toNat, if x.q < 0 then x.q else 0⟩

end TraceRecovery.Decimal
