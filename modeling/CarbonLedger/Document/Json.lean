import CarbonLedger.Document.Value
import CarbonLedger.Decimal.Written

namespace CarbonLedger.Json

open Decimal (numeral)

def escape (c : Char) : List Char :=
  match c with
  | '"' => ['\\', '"']
  | '\\' => ['\\', '\\']
  | '\n' => ['\\', 'n']
  | '\r' => ['\\', 'r']
  | '\t' => ['\\', 't']
  | c =>
    if c.toNat < 0x20 then
      let digits := Nat.toDigits 16 c.toNat
      ['\\', 'u'] ++ List.replicate (4 - digits.length) '0' ++ digits
    else [c]

def writeText (s : String) : String :=
  String.ofList ('"' :: (s.toList.flatMap escape ++ ['"']))

mutual

def write : Value → String
  | .null => "null"
  | .bool b => if b then "true" else "false"
  | .int n => if n < 0 then "-" ++ String.ofList (numeral n.natAbs)
    else String.ofList (numeral n.natAbs)
  | .float x => if x.isFinite then Decimal.Style.data.render x else "null"
  | .text s => writeText s
  | .moment s => writeText s
  | .list items => "[" ++ ",".intercalate (writeAll items) ++ "]"
  | .table entries => "\x7b" ++ ",".intercalate (writeEntries entries) ++ "\x7d"

def writeAll : List Value → List String
  | [] => []
  | v :: r => write v :: writeAll r

def writeEntries : List (String × Value) → List String
  | [] => []
  | (k, v) :: r => (writeText k ++ ":" ++ write v) :: writeEntries r

end

end CarbonLedger.Json
