import CarbonLedger.Document.Value
import CarbonLedger.Decimal.Written
import CarbonLedger.Text.Quoted

namespace CarbonLedger

inductive Mismatch
  | kind (found : Value) (wanted : String)
  | range (n : Int) (wanted : String)
  /-- A table with a number of entries other than one, where the one entry names a case. -/
  | entries
  | absent (field : String)
  | unknown (name : String) (known : List String)
  | short (length : Nat) (wanted : String) (size : Nat)
  /-- A list that goes on after the last field; `size` is given where messages tell it. -/
  | long (length : Nat) (size : Option Nat)

namespace Mismatch

def describe : Value → String
  | .null => "null"
  | .bool b => if b then "boolean `true`" else "boolean `false`"
  | .int n => "integer `" ++ toString n ++ "`"
  | .float x => "floating point `" ++ Decimal.Style.data.render x ++ "`"
  | .text s => "string " ++ Text.quoted s
  | .moment _ => "map"
  | .list _ => "sequence"
  | .table _ => "map"

def elements (n : Nat) : String :=
  if n == 1 then "1 element" else toString n ++ " elements"

def alternatives (known : List String) : String :=
  let marked := known.map fun s => "`" ++ s ++ "`"
  match marked with
  | [] => "there are no variants"
  | [a] => "expected " ++ a
  | [a, b] => "expected " ++ a ++ " or " ++ b
  | _ => "expected one of " ++ ", ".intercalate marked

def message : Mismatch → String
  | .kind found wanted => "invalid type: " ++ describe found ++ ", expected " ++ wanted
  | .range n wanted => "invalid value: integer `" ++ toString n ++ "`, expected " ++ wanted
  | .entries => "invalid value: map, expected map with a single key"
  | .absent field => "missing field `" ++ field ++ "`"
  | .unknown name known => "unknown variant `" ++ name ++ "`, " ++ alternatives known
  | .short length wanted size =>
    "invalid length " ++ toString length ++ ", expected " ++ wanted ++ " with " ++ elements size
  | .long length none => "invalid length " ++ toString length ++
    ", expected fewer elements in array"
  | .long length (some size) =>
    "invalid length " ++ toString length ++ ", expected " ++ elements size ++ " in sequence"

end Mismatch

end CarbonLedger
