/-!
# The exact value of a double

A finite double is a natural number times a power of two. `Binary.ofBits` reads the two off the
bits, and `magnitude` tells finite values from the others. Everything that is printed or rounded in
decimal starts from here, so that it is exact.
-/

namespace TraceRecovery.Decimal

/-- A finite non-negative double, `m * 2 ^ q`. -/
structure Binary where
  m : Nat
  q : Int
  /-- The gap to the double below is half the gap to the double above. -/
  narrowBelow : Bool
deriving DecidableEq, Repr

/-- The value whose sign-free bits are given; they must not be those of an infinity or of no
number. -/
def Binary.ofBits (bits : UInt64) : Binary :=
  let e := ((bits >>> 52) &&& 0x7ff).toNat
  let f := (bits &&& 0xfffffffffffff).toNat
  if e = 0 then ⟨f, -1074, false⟩ else ⟨Nat.pow 2 52 + f, (e : Int) - 1075, f == 0 && e > 1⟩

/-- What a double is, apart from its sign. -/
inductive Magnitude where
  | notANumber
  | infinite
  | finite (value : Binary)

/-- Whether the sign bit of a double is set. -/
def isNegative (x : Float) : Bool := x.toBits >>> 63 == 1

/-- The magnitude of a double. -/
def magnitude (x : Float) : Magnitude :=
  if x.isNaN then .notANumber
  else if x.isInf then .infinite
  else .finite (.ofBits x.toBits)

/-- What is done when a value lies exactly between two candidates. -/
inductive Tie where
  /-- The candidate with the even last digit is taken. -/
  | toEven
  /-- The greater candidate is taken. -/
  | up
deriving DecidableEq, Repr

/-- The quotient of two naturals, rounded to the nearest natural. -/
def roundQuotient (num den : Nat) (tie : Tie) : Nat :=
  let floor := num / den
  match compare (2 * (num % den)) den with
  | .lt => floor
  | .gt => floor + 1
  | .eq => if tie = .toEven ∧ floor % 2 = 0 then floor else floor + 1

end TraceRecovery.Decimal
