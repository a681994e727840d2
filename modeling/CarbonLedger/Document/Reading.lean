import CarbonLedger.Document.Mismatch

/-! Records, numbers and names read from data. All faults of a record's fields are found, and one of
them is told. -/

namespace CarbonLedger

inductive Format
  | json
  | toml
  deriving DecidableEq, Repr

/-- The setting in which a value is read: on the spot, or after it was put by until the tag beside
it was known. -/
inductive Setting
  | onTheSpot (format : Format)
  | putBy (format : Format)
  deriving DecidableEq, Repr

namespace Setting

def later : Setting → Setting
  | .onTheSpot format => .putBy format
  | .putBy format => .putBy format

/-- What may stand beside the name of a case when it is written as a table of one entry. -/
def acceptsBeside : Setting → Value → Bool
  | .onTheSpot .json, .null => true
  | .onTheSpot .toml, .list [] => true
  | .onTheSpot .toml, .table [] => true
  | .putBy _, .null => true
  | .putBy _, .table [] => true
  | _, _ => false

def acceptsPlace : Setting → Bool
  | .putBy .json => true
  | _ => false

def surplus? (setting : Setting) (length size : Nat) : Option Mismatch :=
  if length ≤ size then none
  else match setting with
    | .onTheSpot .json => some (.long length none)
    | .onTheSpot .toml => none
    | .putBy _ => some (.long length (some size))

end Setting

abbrev Reader (α : Type) := Value → Except Mismatch α

namespace Reader

def text : Reader String
  | .text s => .ok s
  | v => .error (.kind v "a string")

def bool : Reader Bool
  | .bool b => .ok b
  | v => .error (.kind v "a boolean")

def float : Reader Float
  | .float x => .ok x
  | .int n =>
    if Int64.minValue.toInt ≤ n ∧ n < UInt64.size then .ok (Float.ofInt n)
    else .error (.kind (.int n) "f64")
  | v => .error (.kind v "f64")

def int64 : Reader Int64
  | .int n =>
    if Int64.minValue.toInt ≤ n ∧ n ≤ Int64.maxValue.toInt then .ok (.ofInt n)
    else .error (.range n "i64")
  | v => .error (.kind v "i64")

def uint32 : Reader UInt32
  | .int n => if 0 ≤ n ∧ n < UInt32.size then .ok (.ofNat n.toNat) else .error (.range n "u32")
  | v => .error (.kind v "u32")

def nullable {α : Type} (read : Reader α) : Reader (Option α)
  | .null => .ok none
  | v => some <$> read v

def list {α : Type} (read : Reader α) : Reader (List α)
  | .list items => items.mapM read
  | v => .error (.kind v "a sequence")

def table {α : Type} (read : Reader α) : Reader (List (String × α))
  | .table entries => entries.mapM fun e => (e.1, ·) <$> read e.2
  | v => .error (.kind v "a map")

end Reader

class Cases (α : Type) where
  cases : List α
  name : α → String
  aliases : List (String × α) := []

namespace Cases

variable {α : Type} [Cases α]

def readable : List (String × α) := cases.map (fun a => (name a, a)) ++ aliases

def ofName? (s : String) : Option α := findEntry s readable

def names (α : Type) [Cases α] : List String := (readable (α := α)).map (·.1)

end Cases

namespace Reader

variable {α : Type} [Cases α]

def caseNamed (s : String) : Except Mismatch α :=
  match Cases.ofName? s with
  | some a => .ok a
  | none => .error (.unknown s (Cases.names α))

/-- A case by its name, which may also be the key of a table with one empty entry. -/
def case (setting : Setting) : Reader α
  | .text s => caseNamed s
  | .table [(s, beside)] => do
    -- The name is checked before what stands beside it.
    let a ← caseNamed s
    if setting.acceptsBeside beside then .ok a else .error (.kind beside "unit")
  | .table _ => .error .entries
  | v => .error (.kind v "string or map")

def tag (setting : Setting) : Reader α
  | .text s => caseNamed s
  | .int n =>
    match (Cases.cases (α := α))[n.toNat]?, setting.acceptsPlace && 0 ≤ n with
    | some a, true => .ok a
    | _, _ => .error (.kind (.int n) "variant identifier")
  | v => .error (.kind v "variant identifier")

/-- A tag and its content in one table or list: the entry under `key`, or the first item, is the
tag, and what remains is the content. -/
def taggedWithin (setting : Setting) (wanted key : String) : Reader (α × Value)
  | .table entries =>
    match findEntry key entries with
    | some v => do
      let a ← tag setting v
      return (a, .table (entries.filter fun e => e.1 != key))
    | none => .error (.absent key)
  | .list (v :: rest) => do
    let a ← tag setting v
    return (a, .list rest)
  | .list [] => .error (.absent key)
  | v => .error (.kind v wanted)

end Reader

inductive Fault
  | wrong (key : String) (cause : Mismatch)
  | absent (cause : Mismatch)

namespace Fault

def cause : Fault → Mismatch
  | .wrong _ cause => cause
  | .absent cause => cause

/-- Which of two faults is told; the first argument is that of the earlier field. -/
def told : Fault → Fault → Fault
  | .wrong j a, .wrong k b => if k < j then .wrong k b else .wrong j a
  | .wrong j a, .absent _ => .wrong j a
  | .absent _, .wrong k b => .wrong k b
  | .absent a, .absent _ => .absent a

end Fault

inductive Checked (α : Type)
  | sound (a : α)
  | faulty (fault : Fault)

namespace Checked

variable {α β : Type}

protected def seq (f : Checked (α → β)) (x : Checked α) : Checked β :=
  match f, x with
  | .sound g, .sound a => .sound (g a)
  | .sound _, .faulty e => .faulty e
  | .faulty e, .sound _ => .faulty e
  | .faulty e, .faulty d => .faulty (e.told d)

instance : Applicative Checked where
  pure := .sound
  seq f x := Checked.seq f (x ())

def result : Checked α → Except Mismatch α
  | .sound a => .ok a
  | .faulty e => .error e.cause

@[simp]
theorem map_sound (g : α → β) (a : α) : g <$> (Checked.sound a) = .sound (g a) := rfl

@[simp]
theorem sound_seq_sound (g : α → β) (a : α) :
    Checked.sound g <*> Checked.sound a = .sound (g a) := rfl

@[simp]
theorem result_sound (a : α) : (Checked.sound a).result = .ok a := rfl

end Checked

inductive Fields
  | named (entries : List (String × Value))
  | placed (wanted : String) (size : Nat) (items : List Value)

namespace Fields

variable {α : Type}

/-- Looks at one field. The last two arguments stand in for a value that is not there, in a table
and in a list. -/
def look (fields : Fields) (place : Nat) (key : String) (read : Reader α)
    (unnamed unplaced : Option α) : Checked α :=
  match fields with
  | .named entries =>
    match findEntry key entries with
    | some v =>
      match read v with
      | .ok a => .sound a
      | .error cause => .faulty (.wrong key cause)
    | none =>
      match unnamed with
      | some a => .sound a
      | none => .faulty (.absent (.absent key))
  | .placed wanted size items =>
    match items[place]? with
    | some v =>
      match read v with
      | .ok a => .sound a
      | .error cause => .faulty (.wrong "" cause)
    | none =>
      match unplaced with
      | some a => .sound a
      | none => .faulty (.wrong "" (.short place wanted size))

def required (fields : Fields) (place : Nat) (key : String) (read : Reader α) : Checked α :=
  fields.look place key read none none

def withDefault (fields : Fields) (place : Nat) (key : String) (read : Reader α) (a : α) :
    Checked α :=
  fields.look place key read (some a) (some a)

def optional (fields : Fields) (place : Nat) (key : String) (read : Reader α) :
    Checked (Option α) :=
  fields.look place key (Reader.nullable read) (some none) (some none)

/-- A field that may be null, and in a table not there; a list has to give it. -/
def nullable (fields : Fields) (place : Nat) (key : String) (read : Reader α) :
    Checked (Option α) :=
  fields.look place key (Reader.nullable read) (some none) none

end Fields

def Reader.record {α : Type} (setting : Setting) (wanted : String) (size : Nat)
    (build : Fields → Checked α) : Reader α
  | .table entries => (build (.named entries)).result
  | .list items => do
    -- Items past the last field count only when all fields are sound.
    let a ← (build (.placed wanted size items)).result
    match setting.surplus? items.length size with
    | some cause => .error cause
    | none => .ok a
  | v => .error (.kind v wanted)

end CarbonLedger
