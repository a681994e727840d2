import CarbonLedger.Decimal.Shortest

namespace CarbonLedger.Decimal

structure Style where
  bounds : Option (Int × Int)
  pointZero : Bool

def Style.message : Style := ⟨none, false⟩

def Style.data : Style := ⟨some (-5, 15), true⟩

def numeral (n : Nat) : List Char := Nat.toDigits 10 n

def inPlace (pointZero : Bool) (ds : List Char) (exponent : Int) : List Char :=
  if 0 ≤ exponent then
    ds ++ List.replicate exponent.toNat '0' ++ (if pointZero then ['.', '0'] else [])
  else
    let places := (-exponent).toNat
    let padded := List.replicate (places + 1 - ds.length) '0' ++ ds
    padded.take (padded.length - places) ++ '.' :: padded.drop (padded.length - places)

def withExponent (ds : List Char) (leading : Int) : List Char :=
  let mantissa := match ds with
    | [] => ['0']
    | [d] => [d]
    | d :: rest => d :: '.' :: rest
  mantissa ++ 'e' :: (if leading < 0 then '-' else '+') :: numeral leading.natAbs

def Style.write (style : Style) (d : Digits) : List Char :=
  let ds := numeral d.digits
  let leading : Int := d.exponent + ds.length - 1
  match style.bounds with
  | none => inPlace style.pointZero ds d.exponent
  | some (least, most) =>
    if least ≤ leading ∧ leading ≤ most then inPlace style.pointZero ds d.exponent
    else withExponent ds leading

def Style.render (style : Style) (x : Float) : String :=
  match meaning x with
  | .notANumber => "NaN"
  | .infinite negative => if negative then "-inf" else "inf"
  | .finite negative mantissa exponent =>
    let digits := if mantissa == 0 then inPlace style.pointZero ['0'] 0
      else style.write (shortest mantissa exponent)
    String.ofList (if negative then '-' :: digits else digits)

def shown (x : Float) : String := Style.message.render x

end CarbonLedger.Decimal
