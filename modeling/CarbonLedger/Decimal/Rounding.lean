import CarbonLedger.Decimal.Binary

namespace CarbonLedger.Decimal

/-- The nearest whole number, a half going away from zero. Doubles with a nonnegative exponent are
whole already, and so is what is not finite; the sign stays, also on zero. -/
def roundWhole (x : Float) : Float :=
  match meaning x with
  | .finite negative mantissa exponent =>
    if 0 ≤ exponent then x
    else
      let unit := Nat.pow 2 (-exponent).toNat
      signed negative (Float.ofNat ((2 * mantissa + unit) / (2 * unit)))
  | _ => x

def round2 (x : Float) : Float := roundWhole (x * 100.0) / 100.0

end CarbonLedger.Decimal
