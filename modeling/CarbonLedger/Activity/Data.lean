import CarbonLedger.Activity.Record
import CarbonLedger.Factor.Data

namespace CarbonLedger

namespace Usage

inductive Unit
  | hours
  | percent
  deriving DecidableEq, Repr

instance : Cases Usage.Unit where
  cases := [.hours, .percent]
  name
    | .hours => "hours"
    | .percent => "percent"

def toValue : Usage → Value
  | .hours active passive =>
    .ofEntries [("unit", .ofCase Unit.hours), ("active_hours_per_week", .ofFloat active),
      ("passive_hours_per_week", .ofFloat passive)]
  | .percent active passive =>
    .ofEntries [("unit", .ofCase Unit.percent), ("active_percent", .ofFloat active),
      ("passive_percent", .ofFloat passive)]

def readIn (setting : Setting) : Unit → Reader Usage
  | .hours => Reader.record setting "struct variant Usage::Hours" 2 fun fields =>
    Usage.hours <$> fields.required 0 "active_hours_per_week" Reader.float
      <*> fields.required 1 "passive_hours_per_week" Reader.float
  | .percent => Reader.record setting "struct variant Usage::Percent" 2 fun fields =>
    Usage.percent <$> fields.required 0 "active_percent" Reader.float
      <*> fields.required 1 "passive_percent" Reader.float

def read (setting : Setting) : Reader Usage := fun v => do
  let (unit, content) ← Reader.taggedWithin setting "internally tagged enum Usage" "unit" v
  readIn setting.later unit content

end Usage

namespace EquipmentUse

def toValue (u : EquipmentUse) : Value :=
  .ofEntries [
    ("submodule", .text u.submodule),
    ("class", .text u.equipmentClass),
    ("sub_class", .ofOption .text u.subClass),
    ("status", .ofCase u.status),
    ("usage", u.usage.toValue),
    ("active_power_w", .ofOption .ofFloat u.activeW),
    ("standby_power_w", .ofOption .ofFloat u.standbyW),
    ("country_code", .ofOption .text u.countryCode)]

def read (setting : Setting) : Reader EquipmentUse :=
  Reader.record setting "struct EquipmentUsage" 8 fun fields =>
    EquipmentUse.mk <$> fields.required 0 "submodule" Reader.text
      <*> fields.required 1 "class" Reader.text
      <*> fields.optional 2 "sub_class" Reader.text
      <*> fields.required 3 "status" (Reader.case setting)
      <*> fields.required 4 "usage" (Usage.read setting)
      <*> fields.optional 5 "active_power_w" Reader.float
      <*> fields.optional 6 "standby_power_w" Reader.float
      <*> fields.optional 7 "country_code" Reader.text

end EquipmentUse

namespace Trip

def toValue (t : Trip) : Value :=
  .ofEntries [
    ("origin_location_id", .ofInt64 t.origin),
    ("destination_location_id", .ofInt64 t.destination),
    ("transport_mode", .text t.mode),
    ("cabin_class", .ofOption .ofCase t.cabin),
    ("number_of_trips", .ofUInt32 t.trips)]

def read (setting : Setting) : Reader Trip :=
  Reader.record setting "struct TravelRecord" 5 fun fields =>
    Trip.mk <$> fields.required 0 "origin_location_id" Reader.int64
      <*> fields.required 1 "destination_location_id" Reader.int64
      <*> fields.required 2 "transport_mode" Reader.text
      <*> fields.optional 3 "cabin_class" (Reader.case setting)
      <*> fields.required 4 "number_of_trips" Reader.uint32

end Trip

namespace Headcount

def toValue (h : Headcount) : Value :=
  .ofEntries [("fte", .ofFloat h.positions), ("category", .ofOption .text h.category)]

def read (setting : Setting) : Reader Headcount :=
  Reader.record setting "struct HeadcountRecord" 2 fun fields =>
    Headcount.mk <$> fields.required 0 "fte" Reader.float
      <*> fields.optional 1 "category" Reader.text

end Headcount

namespace CloudSpend

def toValue (s : CloudSpend) : Value :=
  .ofEntries [("provider", .text s.provider), ("service", .ofOption .text s.service),
    ("spending_amount", .ofFloat s.amount)]

def read (setting : Setting) : Reader CloudSpend :=
  Reader.record setting "struct CloudSpendRecord" 3 fun fields =>
    CloudSpend.mk <$> fields.required 0 "provider" Reader.text
      <*> fields.optional 1 "service" Reader.text
      <*> fields.required 2 "spending_amount" Reader.float

end CloudSpend

namespace ModelUse

def toValue (u : ModelUse) : Value :=
  .ofEntries [("provider", .text u.provider), ("use_case", .ofOption .text u.useCase),
    ("frequency_per_day", .ofFloat u.requestsPerDay), ("user_count", .ofUInt32 u.users)]

def read (setting : Setting) : Reader ModelUse :=
  Reader.record setting "struct AiUsageRecord" 4 fun fields =>
    ModelUse.mk <$> fields.required 0 "provider" Reader.text
      <*> fields.optional 1 "use_case" Reader.text
      <*> fields.required 2 "frequency_per_day" Reader.float
      <*> fields.required 3 "user_count" Reader.uint32

end ModelUse

inductive ActivityError
  | unknownKind (recordType : String)
  | invalidInputs (kind : RecordKind) (cause : Mismatch)

def ActivityError.message : ActivityError → String
  | .unknownKind recordType => "No formula registered for record type '" ++ recordType ++ "'"
  | .invalidInputs kind cause => "Invalid " ++ Cases.name kind ++ " inputs: " ++ cause.message

namespace Activity

def inputs : Activity → Value
  | .equipment u => u.toValue
  | .travel t => t.toValue
  | .headcount h => h.toValue
  | .externalCloud s => s.toValue
  | .externalAi u => u.toValue

def readInputs (setting : Setting) : RecordKind → Reader Activity
  | .equipment => fun v => .equipment <$> EquipmentUse.read setting v
  | .travel => fun v => .travel <$> Trip.read setting v
  | .headcount => fun v => .headcount <$> Headcount.read setting v
  | .externalCloud => fun v => .externalCloud <$> CloudSpend.read setting v
  | .externalAi => fun v => .externalAi <$> ModelUse.read setting v

def decode (recordType : String) (inputs : Value) : Except ActivityError Activity :=
  match Cases.ofName? recordType with
  | none => .error (.unknownKind recordType)
  | some kind => (readInputs (.onTheSpot .json) kind inputs).mapError (.invalidInputs kind)

def toValue (a : Activity) : Value :=
  .ofEntries [("record_type", .ofCase a.kind), ("inputs", a.inputs)]

/-- An activity whose kind and inputs stand together. In a table the inputs come first and wait for
the kind; in a list the kind comes first. -/
def read (setting : Setting) : Reader Activity
  | .table entries =>
    match findEntry "record_type" entries, findEntry "inputs" entries with
    | none, _ => .error (.absent "record_type")
    | some v, inputs => do
      -- The inputs have waited for the kind, so they are read as values that were put by.
      let kind ← Reader.case setting v
      match inputs with
      | none => .error (.absent "inputs")
      | some inputs => readInputs setting.later kind inputs
  | .list items =>
    match items with
    | v :: inputs :: _ => do
      let kind ← Reader.case setting v
      let a ← readInputs setting kind inputs
      match setting.surplus? items.length 2 with
      | some cause => .error cause
      | none => .ok a
    | _ => .error (.short items.length "an activity" 2)
  | v => .error (.kind v "an activity")

end Activity

namespace ActivityRecord

def toValue (r : ActivityRecord) : Value :=
  .ofEntries [("subject_id", .ofInt64 r.subject), ("activity", r.activity.toValue)]

def read (setting : Setting) : Reader ActivityRecord :=
  Reader.record setting "an activity record" 2 fun fields =>
    ActivityRecord.mk <$> fields.required 0 "subject_id" Reader.int64
      <*> fields.required 1 "activity" (Activity.read setting)

end ActivityRecord

end CarbonLedger
