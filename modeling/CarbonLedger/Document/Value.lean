import CarbonLedger.Document.KeyMap

/-! Trees of plain data, the common ground of JSON and TOML. -/

namespace CarbonLedger

/-- A tree of data. Whole numbers are kept apart from doubles, since a whole number may stand where
a double is wanted and not the other way round. The entries of a table stand in the order of their
keys. -/
inductive Value
  | null
  | bool (b : Bool)
  | int (n : Int)
  | float (x : Float)
  | text (s : String)
  | moment (s : String)
  | list (items : List Value)
  | table (entries : List (String × Value))
  deriving Inhabited

namespace Value

def ofEntries (entries : List (String × Value)) : Value :=
  .table (entries.foldl (fun es e => insertEntry e.1 e.2 es) [])

def ofPresent (entries : List (Option (String × Value))) : Value :=
  .ofEntries (entries.filterMap id)

/-- A double as data. Data have no form for infinities and for what is no number. -/
def ofFloat (x : Float) : Value := if x.isFinite then .float x else .null

def ofOption {α : Type} (f : α → Value) : Option α → Value
  | none => .null
  | some a => f a

def get? (v : Value) (key : String) : Option Value :=
  match v with
  | .table entries => findEntry key entries
  | _ => none

end Value

end CarbonLedger
