import CarbonLedger.Document.Toml.Scalar
import CarbonLedger.Document.Toml.Tree
import CarbonLedger.Text.Scanner

namespace CarbonLedger.Toml

open Text (Scanner)
open Text.Scanner

def depthLimit : Nat := 80

def isPlain (c : Char) : Bool := c == '\t' || (0x20 ≤ c.toNat && c.toNat != 0x7F)

def spaces : Scanner Unit := do
  let _ ← takeWhile fun c => c == ' ' || c == '\t'

def lineEnd : Scanner Unit
  | '\n' :: r => some ((), r)
  | '\r' :: '\n' :: r => some ((), r)
  | _ => none

def comment : Scanner Unit := do
  match ← peek? with
  | some '#' => do
    let _ ← takeWhile isPlain
  | _ => pure ()

def gap : Scanner Unit := do
  spaces
  let _ ← many do
    comment
    lineEnd
    spaces
  comment

def innerGap : Scanner Unit := do
  spaces
  let _ ← many do
    comment
    lineEnd
    spaces

def coded? (ds : List Char) : Option Char := do
  let digits ← ds.mapM Json.hexDigit?
  let n := digits.foldl (fun n d => 16 * n + d) 0
  if n.isValidChar then return Char.ofNat n else none

def escaped? (c : Char) : Option Char :=
  match c with
  | 'b' => some '\x08'
  | 't' => some '\t'
  | 'n' => some '\n'
  | 'f' => some '\x0c'
  | 'r' => some '\r'
  | 'e' => some '\x1b'
  | '"' => some '"'
  | '\\' => some '\\'
  | _ => none

def escape : Scanner Char
  | 'x' :: a :: b :: r => (coded? [a, b]).map (·, r)
  | 'u' :: a :: b :: c :: d :: r => (coded? [a, b, c, d]).map (·, r)
  | 'U' :: a :: b :: c :: d :: e :: f :: g :: h :: r => (coded? [a, b, c, d, e, f, g, h]).map (·, r)
  | c :: r => (escaped? c).map (·, r)
  | [] => none

def basicRest : Nat → List Char → Scanner String
  | 0, _ => failure
  | n + 1, acc => do
    let c ← satisfy fun _ => true
    if c == '"' then return String.ofList acc.reverse
    else if c == '\\' then basicRest n ((← escape) :: acc)
    else if isPlain c then basicRest n (c :: acc)
    else failure

def literalRest : Scanner String := do
  let cs ← takeWhile fun c => isPlain c && c != '\''
  char '\''
  return String.ofList cs

/-- Three closing marks and the ones of the text right before them, of which there are at most two.
-/
def closing (mark : Char) : Scanner (List Char) := do
  let marks ← takeUpTo 5 (· == mark)
  if marks.length < 3 then failure else return marks.drop 3

def lineJoin : Scanner Unit := do
  char '\\'
  spaces
  lineEnd
  let _ ← many do
    spaces
    lineEnd
  spaces

def multilineRest (mark : Char) (escapes : Bool) : Nat → List Char → Scanner String
  | 0, _ => failure
  | n + 1, acc => do
    match ← perhaps (closing mark) with
    | some marks => return String.ofList (marks ++ acc).reverse
    | none =>
      match ← perhaps lineEnd with
      | some _ => multilineRest mark escapes n ('\n' :: acc)
      | none =>
        let joined ← if escapes then perhaps lineJoin else pure none
        match joined with
        | some _ => multilineRest mark escapes n acc
        | none =>
          let c ← satisfy fun _ => true
          if escapes && c == '\\' then multilineRest mark escapes n ((← escape) :: acc)
          else if isPlain c then multilineRest mark escapes n (c :: acc)
          else failure

def multiline (mark : Char) (escapes : Bool) : Scanner String := do
  let _ ← perhaps lineEnd
  let n := (← get).length
  multilineRest mark escapes (n + 1) []

def singleLine : Scanner String := do
  match ← get with
  | '"' :: r => do
    set r
    basicRest (r.length + 1) []
  | '\'' :: r => do
    set r
    literalRest
  | _ => failure

def text : Scanner String := do
  match ← get with
  | '"' :: '"' :: '"' :: r => do
    set r
    multiline '"' true
  | '\'' :: '\'' :: '\'' :: r => do
    set r
    multiline '\'' false
  | _ => singleLine

def simpleKey : Scanner String := do
  match ← peek? with
  | some '"' | some '\'' => singleLine
  | _ =>
    let cs ← takeWhile fun c => c.isAlphanum || c == '-' || c == '_'
    if cs.isEmpty then failure else return String.ofList cs

def key : Scanner (List String × String) := do
  let first ← simpleKey
  let more ← many do
    spaces
    char '.'
    spaces
    simpleKey
  let parts := first :: more
  return (parts.dropLast, parts.getLast?.getD first)

def isBareValueChar (c : Char) : Bool :=
  c.isAlphanum || c == '+' || c == '-' || c == '_' || c == '.' || c == ':'

def timeAfterDate : Scanner (List Char) := do
  char ' '
  let c ← satisfy Char.isDigit
  return c :: (← takeWhile isBareValueChar)

def bare : Scanner Value := do
  let cs ← takeWhile isBareValueChar
  let cs ← if isDate cs then
      match ← perhaps timeAfterDate with
      | some time => pure (cs ++ ' ' :: time)
      | none => pure cs
    else pure cs
  match scalar? cs with
  | some v => return v
  | none => failure

def commaSeparated {α : Type} (part : Scanner α) (close : Char) : Scanner (List α) := do
  let firsts ← many do
    innerGap
    let a ← part
    innerGap
    char ','
    return a
  innerGap
  let last ← perhaps do
    let a ← part
    innerGap
    return a
  char close
  return firsts ++ last.toList

def keyValue (value : Scanner Value) : Scanner (List String × String × Value) := do
  let (path, last) ← key
  spaces
  char '='
  spaces
  let v ← value
  return (path, last, v)

def inlineTable (value : Scanner Value) : Scanner Value := do
  let lines ← commaSeparated (keyValue value) '\x7d'
  match lines.foldlM (fun entries (path, key, v) => assign path key v .headed entries) [] with
  | some entries => return .table (toValues entries)
  | none => failure

def value : Nat → Scanner Value
  | 0 => do
    match ← peek? with
    | some '"' | some '\'' => return .text (← text)
    | _ => bare
  | depth + 1 => do
    match ← peek? with
    | some '"' | some '\'' => return .text (← text)
    | some '[' => do
      char '['
      return .list (← commaSeparated (value depth) ']')
    | some '\x7b' => do
      char '\x7b'
      inlineTable (value depth)
    | _ => bare

inductive Line
  | assignment (path : List String) (key : String) (v : Value)
  | header (path : List String) (key : String)
  | elementHeader (path : List String) (key : String)

def headerKey : Scanner (List String × String) := do
  spaces
  let k ← key
  spaces
  return k

def line : Scanner Line := do
  match ← get with
  | '[' :: '[' :: r => do
    set r
    let (path, last) ← headerKey
    word "]]"
    return .elementHeader path last
  | '[' :: r => do
    set r
    let (path, last) ← headerKey
    word "]"
    return .header path last
  | _ => do
    let (path, last, v) ← keyValue (value depthLimit)
    return .assignment path last v

def document : Scanner (List Line) := do
  let _ ← perhaps (char '\ufeff')
  gap
  let lines ← many do
    let l ← line
    spaces
    comment
    match ← perhaps lineEnd with
    | some _ => pure ()
    | none => atEnd
    gap
    return l
  atEnd
  return lines

structure Growth where
  header : List String
  entries : Entries

def Growth.add (g : Growth) : Line → Option Growth
  | .assignment path key v => do
    let entries ← within false g.header (assign path key v) .headed g.entries
    return { g with entries := entries }
  | .header path key => do
    let entries ← within false path (openTable key) .headed g.entries
    return ⟨path ++ [key], entries⟩
  | .elementHeader path key => do
    let entries ← within false path (openElement key) .headed g.entries
    return ⟨path ++ [key], entries⟩

def read? (s : String) : Option Value := do
  let lines ← runAll? document s
  let g ← lines.foldlM Growth.add ⟨[], []⟩
  return .table (toValues g.entries)

end CarbonLedger.Toml
