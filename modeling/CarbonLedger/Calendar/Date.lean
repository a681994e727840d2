/-! Days of the proleptic Gregorian calendar. Day 0 is the first of January 1970, and years are
counted from March, so that the leap day ends a year. -/

namespace CarbonLedger.Calendar

structure Date where
  year : Int
  month : Nat
  day : Nat
  deriving Repr, DecidableEq

def isLeapYear (year : Int) : Bool := year % 4 == 0 && (year % 100 != 0 || year % 400 == 0)

def daysInMonth (year : Int) (month : Nat) : Nat :=
  match month with
  | 1 | 3 | 5 | 7 | 8 | 10 | 12 => 31
  | 4 | 6 | 9 | 11 => 30
  | 2 => if isLeapYear year then 29 else 28
  | _ => 0

def yearBounds : Int × Int := (-262143, 262142)

def Date.isValid (d : Date) : Bool :=
  yearBounds.1 ≤ d.year && d.year ≤ yearBounds.2 && 1 ≤ d.day && d.day ≤ daysInMonth d.year d.month

def daysBefore (monthFromMarch : Nat) : Nat := (153 * monthFromMarch + 2) / 5

def Date.dayNumber (d : Date) : Int :=
  let year : Int := if d.month ≤ 2 then d.year - 1 else d.year
  let month := (d.month + 9) % 12
  365 * year + year / 4 - year / 100 + year / 400 + daysBefore month + (d.day - 1 : Nat) - 719468

def Date.ofDayNumber (n : Int) : Date :=
  -- Day 0 of the shifted count is the first of March of year 0.
  let shifted := n + 719468
  let cycle := shifted / 146097
  let dayOfCycle := (shifted % 146097).toNat
  let yearOfCycle :=
    (dayOfCycle - dayOfCycle / 1460 + dayOfCycle / 36524 - dayOfCycle / 146096) / 365
  let dayOfYear := dayOfCycle - (365 * yearOfCycle + yearOfCycle / 4 - yearOfCycle / 100)
  let monthFromMarch := (5 * dayOfYear + 2) / 153
  let month := if monthFromMarch < 10 then monthFromMarch + 3 else monthFromMarch - 9
  let year : Int := cycle * 400 + yearOfCycle
  ⟨if month ≤ 2 then year + 1 else year, month, dayOfYear - daysBefore monthFromMarch + 1⟩

end CarbonLedger.Calendar
