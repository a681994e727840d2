import CarbonLedger.Document.Value

/-! The tree that a TOML document grows line by line. How a table came about decides what may still
be added to it. -/

namespace CarbonLedger.Toml

inductive Making
  /-- It has a header, or it is the document itself. -/
  | headed
  /-- The header of a table within it names it. -/
  | implied
  /-- A dotted key names it. -/
  | dotted
  deriving DecidableEq, Repr

inductive Node
  | value (v : Value)
  | table (made : Making) (entries : List (String × Node))
  /-- An array of tables, the newest first. -/
  | tables (elements : List (List (String × Node)))

abbrev Entries := List (String × Node)

/-- Changes the table at the end of a path; tables that are not there are made on the way. Of an
array of tables the newest is meant. The path of a dotted key does not lead through a table with a
header. -/
def within (isDotted : Bool) (path : List String) (change : Making → Entries → Option Entries)
    (made : Making) (entries : Entries) : Option Entries :=
  match path with
  | [] => change made entries
  | key :: rest =>
    match findEntry key entries with
    | none => do
      let making := if isDotted then Making.dotted else Making.implied
      let sub ← within isDotted rest change making []
      return insertEntry key (.table making sub) entries
    | some (.value _) => none
    | some (.tables []) => none
    | some (.tables (newest :: older)) => do
      let sub ← within isDotted rest change .headed newest
      return insertEntry key (.tables (sub :: older)) entries
    | some (.table making sub) =>
      if isDotted && making == .headed then none
      else do
        let sub ← within isDotted rest change making sub
        return insertEntry key (.table making sub) entries

def put (viaDots : Bool) (key : String) (v : Value) (made : Making) (entries : Entries) :
    Option Entries :=
  if viaDots != (made == .dotted) then none
  else match findEntry key entries with
    | none => some (insertEntry key (.value v) entries)
    | some _ => none

def assign (path : List String) (key : String) (v : Value) (made : Making) (entries : Entries) :
    Option Entries :=
  within true path (put (!path.isEmpty) key v) made entries

def openTable (key : String) (_ : Making) (entries : Entries) : Option Entries :=
  match findEntry key entries with
  | none => some (insertEntry key (.table .headed []) entries)
  | some (.table .implied sub) => some (insertEntry key (.table .headed sub) entries)
  | some _ => none

def openElement (key : String) (_ : Making) (entries : Entries) : Option Entries :=
  match findEntry key entries with
  | none => some (insertEntry key (.tables [[]]) entries)
  | some (.tables elements) => some (insertEntry key (.tables ([] :: elements)) entries)
  | some _ => none

mutual

def Node.toValue : Node → Value
  | .value v => v
  | .table _ entries => .table (toValues entries)
  | .tables elements => .list (tablesToValues elements).reverse

def toValues : List (String × Node) → List (String × Value)
  | [] => []
  | (key, node) :: rest => (key, node.toValue) :: toValues rest

def tablesToValues : List (List (String × Node)) → List Value
  | [] => []
  | entries :: rest => .table (toValues entries) :: tablesToValues rest

end

end CarbonLedger.Toml
