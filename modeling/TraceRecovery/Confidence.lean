import TraceRecovery.Error

/-!
# Confidences

How likely a trace link between an item and a unit would be correct, in the view of one node: a
number between 0 and 1, or nothing at all. A node that abstains makes no statement; that is not
the same as a confidence of 0, and ranks below it. The range is part of the type, so a confidence
is never outside it and never fails to be a number.
-/

namespace TraceRecovery

/-- A confidence: abstention, or a number between 0 and 1. -/
inductive Confidence where
  | unset
  | of (value : Float) (inRange : 0 ≤ value ∧ value ≤ 1)

namespace Confidence

instance : Inhabited Confidence := ⟨unset⟩

/-- The confidence with a given value, which must lie between 0 and 1. -/
def ofValue (value : Float) : Except TraceError Confidence :=
  if h : 0 ≤ value ∧ value ≤ 1 then .ok (of value h)
  else .error (.invalidArgument (.confidenceOutOfRange value))

/-- The value, if there is one. -/
def value? : Confidence → Option Float
  | unset => none
  | of v _ => some v

/-- Whether there is a value. -/
def isDefined : Confidence → Bool
  | unset => false
  | of _ _ => true

/-- The value; an abstention has none. -/
def value : Confidence → Except TraceError Float
  | unset => .error .noValue
  | of v _ => .ok v

/-- The order of confidences: an abstention ranks lowest, values rank as numbers. -/
def compare : Confidence → Confidence → Ordering
  | unset, unset => .eq
  | unset, of _ _ => .lt
  | of _ _, unset => .gt
  | of a _, of b _ => if a < b then .lt else if b < a then .gt else .eq

instance : Ord Confidence := ⟨compare⟩

instance : BEq Confidence := ⟨fun a b => compare a b == .eq⟩

instance : LT Confidence := ⟨fun a b => compare a b = .lt⟩

instance : LE Confidence := ⟨fun a b => compare a b ≠ .gt⟩

instance (a b : Confidence) : Decidable (a < b) := inferInstanceAs (Decidable (_ = _))

instance (a b : Confidence) : Decidable (a ≤ b) := inferInstanceAs (Decidable (_ ≠ _))

/-- The greater of two confidences; of two equal ones the first. -/
def best (a b : Confidence) : Confidence := if a < b then b else a

/-- The greatest confidence of a list; of several equal ones the first. An empty list abstains. -/
def bestOf (cs : List Confidence) : Confidence := cs.foldl best unset

/-- Inserts a confidence behind all that do not rank above it. -/
def insert (c : Confidence) : List Confidence → List Confidence
  | [] => [c]
  | d :: ds => if c < d then c :: d :: ds else d :: insert c ds

/-- The confidences in ascending order; equal ones keep their order. -/
def sort (cs : List Confidence) : List Confidence := cs.foldl (fun sorted c => insert c sorted) []

/-- The text of a confidence in messages. -/
def render : Confidence → String
  | unset => "no value"
  | of v _ => Decimal.plain.render v

theorem isDefined_iff_value?_isSome (c : Confidence) : c.isDefined = c.value?.isSome := by
  cases c <;> rfl

theorem ofValue_eq_ok_iff {v : Float} {c : Confidence} :
    ofValue v = .ok c ↔ ∃ h : 0 ≤ v ∧ v ≤ 1, c = of v h := by
  unfold ofValue
  split
  · rename_i h
    constructor
    · intro e
      exact ⟨h, (Except.ok.inj e).symm⟩
    · rintro ⟨_, rfl⟩
      rfl
  · rename_i h
    constructor
    · intro e
      cases e
    · rintro ⟨h', _⟩
      exact absurd h' h

end Confidence

end TraceRecovery
