import CarbonLedger.Document.Value
import CarbonLedger.Decimal.Read

namespace CarbonLedger.Json

def depthLimit : Nat := 127

def skipBlanks (cs : List Char) : List Char :=
  cs.dropWhile fun c => c == ' ' || c == '\t' || c == '\n' || c == '\r'

def hexDigit? (c : Char) : Option Nat :=
  if '0' ≤ c && c ≤ '9' then some (c.toNat - 48)
  else if 'a' ≤ c && c ≤ 'f' then some (c.toNat - 87)
  else if 'A' ≤ c && c ≤ 'F' then some (c.toNat - 55)
  else none

def readUnit (cs : List Char) : Option (Nat × List Char) :=
  match cs with
  | a :: b :: c :: d :: r => do
    let digits ← [a, b, c, d].mapM hexDigit?
    return (digits.foldl (fun n x => 16 * n + x) 0, r)
  | _ => none

def readCoded (cs : List Char) : Option (Char × List Char) := do
  let (unit, rest) ← readUnit cs
  if 0xD800 ≤ unit && unit ≤ 0xDBFF then
    match rest with
    | '\\' :: 'u' :: more =>
      let (low, rest) ← readUnit more
      if 0xDC00 ≤ low && low ≤ 0xDFFF then
        return (Char.ofNat (0x10000 + (unit - 0xD800) * 0x400 + (low - 0xDC00)), rest)
      else none
    | _ => none
  else if 0xDC00 ≤ unit && unit ≤ 0xDFFF then none
  else return (Char.ofNat unit, rest)

def escaped? (c : Char) : Option Char :=
  match c with
  | '"' => some '"'
  | '\\' => some '\\'
  | '/' => some '/'
  | 'b' => some '\x08'
  | 'f' => some '\x0c'
  | 'n' => some '\n'
  | 'r' => some '\r'
  | 't' => some '\t'
  | _ => none

/-- The rest of a string after its opening mark. The first argument bounds the number of characters,
the second collects them in reverse. -/
def readString : Nat → List Char → List Char → Option (String × List Char)
  | 0, _, _ => none
  | _ + 1, _, [] => none
  | _ + 1, acc, '"' :: r => some (String.ofList acc.reverse, r)
  | n + 1, acc, '\\' :: 'u' :: r =>
    match readCoded r with
    | some (c, r) => readString n (c :: acc) r
    | none => none
  | n + 1, acc, '\\' :: e :: r =>
    match escaped? e with
    | some c => readString n (c :: acc) r
    | none => none
  | n + 1, acc, c :: r => if c.toNat < 0x20 then none else readString n (c :: acc) r

def wholePart (cs : List Char) : Option (List Char × List Char) :=
  let ds := cs.takeWhile Char.isDigit
  match ds with
  | [] => none
  | ['0'] => some (ds, cs.dropWhile Char.isDigit)
  | '0' :: _ => none
  | _ => some (ds, cs.dropWhile Char.isDigit)

def fractionPart (cs : List Char) : Option (Option (List Char) × List Char) :=
  match cs with
  | '.' :: r =>
    let ds := r.takeWhile Char.isDigit
    if ds.isEmpty then none else some (some ds, r.dropWhile Char.isDigit)
  | r => some (none, r)

def powerPart (cs : List Char) : Option (Option Int × List Char) :=
  match cs with
  | c :: r =>
    if c == 'e' || c == 'E' then
      let (negative, r) := Decimal.splitSign r
      let ds := r.takeWhile Char.isDigit
      if ds.isEmpty then none
      else
        let n : Int := Decimal.ofDigits ds
        some (some (if negative then -n else n), r.dropWhile Char.isDigit)
    else some (none, cs)
  | [] => some (none, [])

def readNumber (cs : List Char) : Option (Value × List Char) := do
  let (negative, cs) := match cs with
    | '-' :: r => (true, r)
    | r => (false, r)
  let (whole, cs) ← wholePart cs
  let (fraction, cs) ← fractionPart cs
  let (power, cs) ← powerPart cs
  let digits := Decimal.ofDigits (whole ++ fraction.getD [])
  let n : Int := if negative then -digits else digits
  -- Only digits that fit 64 bits make a whole number.
  if fraction.isNone && power.isNone && Int64.minValue.toInt ≤ n && n < UInt64.size &&
    !(negative && digits == 0)
  then return (.int n, cs)
  else
    let x := Decimal.nearest digits (power.getD 0 - (fraction.getD []).length)
    if x.isFinite then return (.float (Decimal.signed negative x), cs) else none

mutual

/-- A value at the start of the text. The first argument bounds the work and the second the nesting.
-/
def readValue : Nat → Nat → List Char → Option (Value × List Char)
  | 0, _, _ => none
  | n + 1, depth, cs =>
    match skipBlanks cs with
    | 'n' :: 'u' :: 'l' :: 'l' :: r => some (.null, r)
    | 't' :: 'r' :: 'u' :: 'e' :: r => some (.bool true, r)
    | 'f' :: 'a' :: 'l' :: 's' :: 'e' :: r => some (.bool false, r)
    | '"' :: r => (readString (n + 1) [] r).map fun (s, r) => (.text s, r)
    | '[' :: r =>
      if depth == 0 then none
      else match skipBlanks r with
        | ']' :: r => some (.list [], r)
        | r => (readItems n (depth - 1) [] r).map fun (vs, r) => (.list vs, r)
    | '\x7b' :: r =>
      if depth == 0 then none
      else match skipBlanks r with
        | '\x7d' :: r => some (.table [], r)
        | r => (readEntries n (depth - 1) [] r).map fun (es, r) => (.ofEntries es, r)
    | cs => readNumber cs

def readItems : Nat → Nat → List Value → List Char → Option (List Value × List Char)
  | 0, _, _, _ => none
  | n + 1, depth, acc, cs =>
    match readValue n depth cs with
    | none => none
    | some (v, r) =>
      match skipBlanks r with
      | ',' :: r => readItems n depth (v :: acc) r
      | ']' :: r => some ((v :: acc).reverse, r)
      | _ => none

def readEntries : Nat → Nat → List (String × Value) → List Char →
    Option (List (String × Value) × List Char)
  | 0, _, _, _ => none
  | n + 1, depth, acc, cs =>
    match skipBlanks cs with
    | '"' :: r =>
      match readString (n + 1) [] r with
      | none => none
      | some (key, r) =>
        match skipBlanks r with
        | ':' :: r =>
          match readValue n depth r with
          | none => none
          | some (v, r) =>
            match skipBlanks r with
            | ',' :: r => readEntries n depth ((key, v) :: acc) r
            | '\x7d' :: r => some (((key, v) :: acc).reverse, r)
            | _ => none
        | _ => none
    | _ => none

end

def read? (s : String) : Option Value :=
  let cs := s.toList
  match readValue (cs.length + 1) depthLimit cs with
  | some (v, r) => if (skipBlanks r).isEmpty then some v else none
  | none => none

end CarbonLedger.Json
