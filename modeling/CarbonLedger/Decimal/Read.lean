import CarbonLedger.Decimal.Binary

namespace CarbonLedger.Decimal

/-- The double nearest to `digits * 10 ^ exponent`. Numbers of more than 310 places before the point
are past the largest double, and those with their first digit after the 330th place are below half
of the smallest. -/
def nearest (digits : Nat) (exponent : Int) : Float :=
  let places : Int := (Nat.toDigits 10 digits).length + exponent
  if digits == 0 then 0.0
  else if 310 < places then infinity false
  else if places < -330 then 0.0
  else Float.ofScientific digits (exponent < 0) exponent.natAbs

def ofDigits (ds : List Char) : Nat :=
  ds.foldl (fun n d => 10 * n + (d.toNat - '0'.toNat)) 0

def splitSign : List Char → Bool × List Char
  | '-' :: r => (true, r)
  | '+' :: r => (false, r)
  | r => (false, r)

def exponentOf? (cs : List Char) : Option Int :=
  let (negative, ds) := splitSign cs
  if ds.isEmpty || !ds.all Char.isDigit then none
  else some (if negative then -(ofDigits ds) else ofDigits ds)

def unsigned? (cs : List Char) : Option Float :=
  let whole := cs.takeWhile Char.isDigit
  let afterWhole := cs.dropWhile Char.isDigit
  let (fraction, rest) := match afterWhole with
    | '.' :: r => (r.takeWhile Char.isDigit, r.dropWhile Char.isDigit)
    | r => ([], r)
  -- The digits after the point count for the number and against the exponent.
  let number (e : Int) := nearest (ofDigits (whole ++ fraction)) (e - fraction.length)
  if whole.isEmpty && fraction.isEmpty then none
  else match rest with
    | [] => some (number 0)
    | c :: r => if c == 'e' || c == 'E' then (exponentOf? r).map number else none

def named? (cs : List Char) : Option Float :=
  let name := String.ofList (cs.map Char.toLower)
  if name == "inf" || name == "infinity" then some (infinity false)
  else if name == "nan" then some notANumber
  else none

/-- The double that a text stands for: an optional sign, then a decimal number or one of the names
`inf`, `infinity` and `nan` in any case. Blanks and digit separators are not part of a number. -/
def ofText? (s : String) : Option Float :=
  let (negative, rest) := splitSign s.toList
  ((named? rest).or (unsigned? rest)).map (signed negative)

end CarbonLedger.Decimal
