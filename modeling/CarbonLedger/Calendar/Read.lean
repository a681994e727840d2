import CarbonLedger.Calendar.Instant
import CarbonLedger.Decimal.Read
import CarbonLedger.Text.Blank
import CarbonLedger.Text.Scanner

namespace CarbonLedger.Instant

open Text (Scanner isBlankChar)
open Text.Scanner

def blanks : Scanner Unit := do
  let _ ← takeWhile isBlankChar

def number (width : Nat) : Scanner Nat := do
  blanks
  return Decimal.ofDigits (← takeUpTo width Char.isDigit)

def bounded (least most : Nat) : Scanner Nat := do
  let n ← number 2
  if least ≤ n ∧ n ≤ most then return n else failure

def mark (c : Char) : Scanner Unit := do
  blanks
  char c

def year : Scanner Int := do
  blanks
  match ← peek? with
  | some '-' =>
    char '-'
    let ds ← takeWhile Char.isDigit
    if ds.isEmpty then failure else return -(Decimal.ofDigits ds)
  | some '+' =>
    char '+'
    let ds ← takeWhile Char.isDigit
    if ds.isEmpty then failure else return Decimal.ofDigits ds
  | _ => return Decimal.ofDigits (← takeUpTo 4 Char.isDigit)

def date : Scanner Calendar.Date := do
  let y ← year
  mark '-'
  let m ← bounded 1 12
  mark '-'
  let d ← bounded 1 31
  let date : Calendar.Date := ⟨y, m, d⟩
  if date.isValid then return date else failure

def fraction : Scanner Nat := do
  match ← peek? with
  | some '.' =>
    char '.'
    let ds ← takeUpTo 9 Char.isDigit
    let _ ← takeWhile Char.isDigit
    return Decimal.ofDigits ds * Nat.pow 10 (9 - ds.length)
  | _ => return 0

/-- Seconds and nanoseconds since midnight. Second 60 is a leap second on top of second 59. -/
def timeOfDay : Scanner (Nat × Nat) := do
  let h ← bounded 0 23
  mark ':'
  let m ← bounded 0 59
  mark ':'
  let s ← bounded 0 60
  let nanos ← fraction
  blanks
  if s == 60 then return (h * 3600 + m * 60 + 59, nanos + 1000000000)
  else return (h * 3600 + m * 60 + s, nanos)

def twoDigits : Scanner Nat := do
  let a ← satisfy Char.isDigit
  let b ← satisfy Char.isDigit
  return Decimal.ofDigits [a, b]

def signedOffset : Scanner Int := do
  let sign ← satisfy fun c => c == '+' || c == '-' || c == '\u2212'
  let h ← twoDigits
  let _ ← takeWhile fun c => c == ':' || isBlankChar c
  let m ← twoDigits
  let seconds := h * 3600 + m * 60
  if m < 60 ∧ seconds < 86400 then
    return if sign == '+' then (seconds : Int) else -(seconds : Int)
  else failure

def offset : Scanner Int := do
  let letters := fun cs : List Char => cs.map Char.toLower
  match ← get with
  | 'Z' :: r | 'z' :: r => set r; return 0
  | a :: b :: c :: r =>
    if letters [a, b, c] == ['u', 't', 'c'] then set r; return 0 else signedOffset
  | _ => signedOffset

def instant : Scanner Instant := do
  let d ← date
  let _ ← satisfy fun c => c == 'T' || c == 't' || c == ' '
  let (seconds, nanos) ← timeOfDay
  let o ← offset
  blanks
  let total := d.dayNumber * 86400 + seconds - o
  let inUtc := Calendar.Date.ofDayNumber (total / 86400)
  if inUtc.isValid then return ⟨total, nanos⟩ else failure

def read? (s : String) : Option Instant := runAll? instant s

end CarbonLedger.Instant
