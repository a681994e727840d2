import CarbonLedger.Calendar.Date
import CarbonLedger.Decimal.Read
import CarbonLedger.Document.JsonReader
import CarbonLedger.Document.Value

namespace CarbonLedger.Toml

open Decimal (ofDigits splitSign)

def separated? (isDigit : Char → Bool) (cs : List Char) : Option (List Char) :=
  let ds := cs.filter (· != '_')
  let firstAndLast := match cs.head?, cs.getLast? with
    | some a, some b => isDigit a && isDigit b
    | _, _ => false
  let noPairs := (cs.zip (cs.drop 1)).all fun p => !(p.1 == '_' && p.2 == '_')
  if firstAndLast && noPairs && ds.all isDigit then some ds else none

def wholeDigits? (cs : List Char) : Option (List Char) :=
  match separated? Char.isDigit cs with
  | some ['0'] => some ['0']
  | some ('0' :: _) => none
  | ds => ds

def based? (base : Nat) (cs : List Char) : Option Value := do
  let isDigit (c : Char) : Bool := (Json.hexDigit? c).any (· < base)
  let ds ← separated? isDigit cs
  return .int (ds.foldl (fun n c => base * n + (Json.hexDigit? c).getD 0) 0)

def decimal? (cs : List Char) : Option Value := do
  let (negative, cs) := splitSign cs
  let isWhole (c : Char) : Bool := c.isDigit || c == '_'
  let whole ← wholeDigits? (cs.takeWhile isWhole)
  let rest := cs.dropWhile isWhole
  let n := ofDigits whole
  if rest.isEmpty then return .int (if negative then -n else n)
  let (fraction, rest) ← match rest with
    | '.' :: r => do
      let ds ← separated? Char.isDigit (r.takeWhile isWhole)
      pure (ds, r.dropWhile isWhole)
    | r => pure ([], r)
  let power ← match rest with
    | [] => pure (0 : Int)
    | c :: r =>
      if c == 'e' || c == 'E' then do
        let (negative, r) := splitSign r
        let ds ← separated? Char.isDigit r
        let n : Int := ofDigits ds
        pure (if negative then -n else n)
      else none
  let x := Decimal.nearest (ofDigits (whole ++ fraction)) (power - fraction.length)
  if x.isFinite then return .float (Decimal.signed negative x) else none

def named? (cs : List Char) : Option Value :=
  let (negative, name) := splitSign cs
  if name == ['i', 'n', 'f'] then some (.float (Decimal.infinity negative))
  else if name == ['n', 'a', 'n'] then some (.float Decimal.notANumber)
  else none

def pair? (least most : Nat) (cs : List Char) : Option Nat :=
  match cs with
  | [a, b] =>
    let n := ofDigits cs
    if a.isDigit && b.isDigit && least ≤ n && n ≤ most then some n else none
  | _ => none

def isDate (cs : List Char) : Bool :=
  match cs with
  | [a, b, c, d, '-', e, f, '-', g, h] =>
    [a, b, c, d].all Char.isDigit &&
      match pair? 1 12 [e, f], pair? 1 31 [g, h] with
      | some month, some day => day ≤ Calendar.daysInMonth (ofDigits [a, b, c, d]) month
      | _, _ => false
  | _ => false

def isFraction (cs : List Char) : Bool :=
  match cs with
  | [] => true
  | '.' :: ds => !ds.isEmpty && ds.all Char.isDigit
  | _ => false

def isTime (cs : List Char) : Bool :=
  match cs with
  | a :: b :: ':' :: c :: d :: rest =>
    (pair? 0 23 [a, b]).isSome && (pair? 0 59 [c, d]).isSome &&
      match rest with
      | [] => true
      | ':' :: e :: f :: rest => (pair? 0 60 [e, f]).isSome && isFraction rest
      | _ => false
  | _ => false

def isOffsetTime (cs : List Char) : Bool :=
  match cs.reverse with
  | 'Z' :: r | 'z' :: r => isTime r.reverse
  | d :: c :: ':' :: b :: a :: sign :: r =>
    (sign == '+' || sign == '-') && (pair? 0 23 [a, b]).isSome && (pair? 0 59 [c, d]).isSome &&
      isTime r.reverse
  | _ => false

def moment? (cs : List Char) : Option Value :=
  let date := cs.take 10
  let isMoment := isTime cs || (isDate date &&
    match cs.drop 10 with
    | [] => true
    | mark :: time =>
      (mark == 'T' || mark == 't' || mark == ' ') && (isTime time || isOffsetTime time))
  if isMoment then some (.moment (String.ofList cs)) else none

def scalar? (cs : List Char) : Option Value :=
  match cs with
  | ['t', 'r', 'u', 'e'] => some (.bool true)
  | ['f', 'a', 'l', 's', 'e'] => some (.bool false)
  | '0' :: 'x' :: r => based? 16 r
  | '0' :: 'o' :: r => based? 8 r
  | '0' :: 'b' :: r => based? 2 r
  | cs => (named? cs).or ((decimal? cs).or (moment? cs))

end CarbonLedger.Toml
