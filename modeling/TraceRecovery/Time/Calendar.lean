/-!
# The calendar

Dates of the Gregorian calendar, carried on into all years before and after, as days counted from
the first of January 1970. Years are counted astronomically: the year before the year 1 is the
year 0.
-/

namespace TraceRecovery.Time

/-- A day of a month of a year. -/
structure Date where
  year : Int
  month : Nat
  day : Nat
deriving DecidableEq, Repr

/-- Whether a year has a 29th of February. -/
def isLeap (year : Int) : Bool := year % 4 == 0 && (year % 100 != 0 || year % 400 == 0)

/-- The number of days of a month. -/
def daysInMonth (year : Int) (month : Nat) : Nat :=
  match month with
  | 2 => if isLeap year then 29 else 28
  | 4 | 6 | 9 | 11 => 30
  | _ => 31

namespace Date

/-- Whether a month has such a day. -/
def isValid (d : Date) : Bool :=
  1 ≤ d.month && d.month ≤ 12 && 1 ≤ d.day && d.day ≤ daysInMonth d.year d.month

/-- The number of days before a month in a year that begins in March: its months have alternating
lengths in groups of five, which 153 fifths of a month count. -/
def daysBeforeMonth (marchMonth : Nat) : Nat := (153 * marchMonth + 2) / 5

/-- The number of the day, zero for the first of January 1970. The year is taken to begin in March,
so that a leap day comes last. -/
def toDays (d : Date) : Int :=
  let year := if d.month ≤ 2 then d.year - 1 else d.year
  let marchMonth := (d.month + 9) % 12
  let leapDays := year / 4 - year / 100 + year / 400
  365 * year + leapDays + (daysBeforeMonth marchMonth + d.day - 1 : Nat) - 719468

/-- The date with a number. Four hundred years always have 146097 days. -/
def ofDays (days : Int) : Date :=
  let shifted := days + 719468
  let era := shifted / 146097
  let dayOfEra := (shifted % 146097).toNat
  let yearOfEra := (dayOfEra - dayOfEra / 1460 + dayOfEra / 36524 - dayOfEra / 146096) / 365
  let dayOfYear := dayOfEra - (365 * yearOfEra + yearOfEra / 4 - yearOfEra / 100)
  let marchMonth := (5 * dayOfYear + 2) / 153
  let month := if marchMonth < 10 then marchMonth + 3 else marchMonth - 9
  ⟨era * 400 + yearOfEra + (if month ≤ 2 then 1 else 0), month,
    dayOfYear - daysBeforeMonth marchMonth + 1⟩

end Date

end TraceRecovery.Time
