import CarbonLedger.Decimal.Binary

/-! The shortest decimal of a double: the fewest digits that read back as the same double, and of
those the nearest to it. -/

namespace CarbonLedger.Decimal

structure Digits where
  digits : Nat
  exponent : Int
  deriving Repr, DecidableEq

structure Interval where
  low : Nat
  value : Nat
  high : Nat
  withEnds : Bool
  numerator : Nat
  denominator : Nat

/-- The interval of `mantissa * 2 ^ exponent`, in units of a quarter of the last place. Below a
power of two the doubles lie twice as close, so there the lower end is half as far. -/
def Interval.ofBinary (mantissa : Nat) (exponent : Int) : Interval where
  low := if mantissa == hiddenBit && leastExponent < exponent then 4 * mantissa - 1
    else 4 * mantissa - 2
  value := 4 * mantissa
  high := 4 * mantissa + 2
  withEnds := mantissa % 2 == 0
  numerator := Nat.pow 2 (exponent - 2).toNat
  denominator := Nat.pow 2 (2 - exponent).toNat

def Interval.holds (i : Interval) (d : Digits) : Bool :=
  -- Both sides are multiplied by what makes them whole; one of the two powers of ten is 1.
  let point := d.digits * Nat.pow 10 d.exponent.toNat * i.denominator
  let scale := i.numerator * Nat.pow 10 (-d.exponent).toNat
  if i.withEnds then i.low * scale ≤ point && point ≤ i.high * scale
  else i.low * scale < point && point < i.high * scale

/-- The last point on the grid of multiples of `10 ^ exponent` that is not above the value, and
whether the value is nearer to it than to the next point. A value half way goes to the even one. -/
def Interval.floorOn (i : Interval) (exponent : Int) : Nat × Bool :=
  let top := i.value * i.numerator * Nat.pow 10 (-exponent).toNat
  let bottom := i.denominator * Nat.pow 10 exponent.toNat
  let floor := top / bottom
  let rest := 2 * (top % bottom)
  (floor, rest < bottom || (rest == bottom && floor % 2 == 0))

def Interval.magnitude (i : Interval) : Int :=
  let top := i.value * i.numerator
  let below (p : Int) : Bool := top * Nat.pow 10 (-p).toNat < i.denominator * Nat.pow 10 p.toNat
  -- 30103 / 100000 is the logarithm of 2, so the guess is at most two too low or one too high.
  let guess : Int := ((Nat.log2 top : Int) - Nat.log2 i.denominator) * 30103 / 100000
  if below (guess - 1) then guess - 1
  else if below guess then guess
  else if below (guess + 1) then guess + 1
  else guess + 2

def Interval.pointOn (i : Interval) (exponent : Int) : Option Digits :=
  let (floor, nearer) := i.floorOn exponent
  let lower : Digits := ⟨floor, exponent⟩
  let upper : Digits := ⟨floor + 1, exponent⟩
  match i.holds lower, i.holds upper with
  | true, true => some (if nearer then lower else upper)
  | true, false => some lower
  | false, true => some upper
  | false, false => none

def Digits.strip : Nat → Digits → Digits
  | 0, d => d
  | n + 1, d => if d.digits % 10 == 0 && 0 < d.digits then strip n ⟨d.digits / 10, d.exponent + 1⟩
    else d

/-- The shortest decimal of `mantissa * 2 ^ exponent`, a positive double. Seventeen digits always
suffice. -/
def shortest (mantissa : Nat) (exponent : Int) : Digits :=
  let i := Interval.ofBinary mantissa exponent
  let p := i.magnitude
  let found := (List.range 17).findSome? fun n : Nat => i.pointOn (p - (n + 1))
  (found.getD ⟨(i.floorOn (p - 17)).1, p - 17⟩).strip 20

end CarbonLedger.Decimal
