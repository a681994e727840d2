namespace CarbonLedger.Decimal

/-- The meaning of a double. A finite one is `± mantissa * 2 ^ exponent`, with the mantissa and
exponent that its bits carry. -/
inductive Meaning
  | finite (negative : Bool) (mantissa : Nat) (exponent : Int)
  | infinite (negative : Bool)
  | notANumber
  deriving Repr, DecidableEq

def hiddenBit : Nat := 0x10000000000000

def leastExponent : Int := -1074

def meaning (x : Float) : Meaning :=
  let bits := x.toBits.toNat
  let negative : Bool := 0x8000000000000000 ≤ bits
  let biased := bits / hiddenBit % 0x800
  let fraction := bits % hiddenBit
  if biased == 2047 then
    if fraction == 0 then .infinite negative else .notANumber
  else if biased == 0 then .finite negative fraction leastExponent
  else .finite negative (hiddenBit + fraction) (leastExponent + (biased - 1 : Nat))

def infinity (negative : Bool) : Float :=
  .ofBits (if negative then 0xFFF0000000000000 else 0x7FF0000000000000)

def notANumber : Float := .ofBits 0x7FF8000000000000

def signed (negative : Bool) (x : Float) : Float := if negative then -x else x

end CarbonLedger.Decimal
