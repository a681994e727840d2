import CarbonLedger.Activity.Data
import CarbonLedger.Emission.Result

namespace CarbonLedger

def Value.entry? {α : Type} (key : String) (f : α → Value) (a : Option α) :
    Option (String × Value) :=
  a.map fun a => (key, f a)

inductive Formula
  | equipment
  | flight
  | train
  | headcount
  | externalCloud
  | externalAi
  deriving DecidableEq, Repr

instance : Cases Formula where
  cases := [.equipment, .flight, .train, .headcount, .externalCloud, .externalAi]
  name
    | .equipment => "equipment"
    | .flight => "flight"
    | .train => "train"
    | .headcount => "headcount"
    | .externalCloud => "external_cloud"
    | .externalAi => "external_ai"

namespace Snapshot

def formula : Snapshot → Formula
  | .equipment _ => .equipment
  | .flight _ => .flight
  | .train _ => .train
  | .headcount _ => .headcount
  | .externalCloud _ => .externalCloud
  | .externalAi _ => .externalAi

end Snapshot

namespace EquipmentSnapshot

def entries (s : EquipmentSnapshot) : List (Option (String × Value)) := [
  some ("submodule", .text s.submodule),
  some ("class", .text s.equipmentClass),
  some ("sub_class", .ofOption .text s.subClass),
  some ("status", .ofCase s.status),
  some ("active_usage_hours_per_week", .ofFloat s.activeHours),
  some ("passive_usage_hours_per_week", .ofFloat s.passiveHours),
  Value.entry? "active_usage_percent" .ofFloat s.activePercent,
  Value.entry? "passive_usage_percent" .ofFloat s.passivePercent,
  some ("active_power_w", .ofOption .ofFloat s.activeW),
  some ("standby_power_w", .ofOption .ofFloat s.standbyW),
  some ("power_overridden", .bool s.overridden),
  some ("weeks_per_year", .ofFloat s.weeksPerYear),
  some ("hours_per_week", .ofFloat s.hoursPerWeek),
  some ("country_code", .text s.countryCode),
  some ("kg_co2eq_per_kwh", .ofFloat s.kgPerKwh),
  some ("intensity_source", .ofCase s.gridSource)]

def read (setting : Setting) : Reader EquipmentSnapshot :=
  Reader.record setting "a snapshot of equipment" 16 fun fields =>
    EquipmentSnapshot.mk <$> fields.required 0 "submodule" Reader.text
      <*> fields.required 1 "class" Reader.text
      <*> fields.nullable 2 "sub_class" Reader.text
      <*> fields.required 3 "status" (Reader.case setting)
      <*> fields.required 4 "active_usage_hours_per_week" Reader.float
      <*> fields.required 5 "passive_usage_hours_per_week" Reader.float
      <*> fields.optional 6 "active_usage_percent" Reader.float
      <*> fields.optional 7 "passive_usage_percent" Reader.float
      <*> fields.nullable 8 "active_power_w" Reader.float
      <*> fields.nullable 9 "standby_power_w" Reader.float
      <*> fields.required 10 "power_overridden" Reader.bool
      <*> fields.required 11 "weeks_per_year" Reader.float
      <*> fields.required 12 "hours_per_week" Reader.float
      <*> fields.required 13 "country_code" Reader.text
      <*> fields.required 14 "kg_co2eq_per_kwh" Reader.float
      <*> fields.required 15 "intensity_source" (Reader.case setting)

end EquipmentSnapshot

namespace TripSnapshot

def entries (s : TripSnapshot) : List (Option (String × Value)) := [
  some ("transport_mode", .text s.mode),
  some ("origin_location_id", .ofInt64 s.origin),
  some ("destination_location_id", .ofInt64 s.destination),
  some ("origin_name", .ofOption .text s.originName),
  some ("destination_name", .ofOption .text s.destinationName),
  some ("cabin_class", .ofOption .ofCase s.cabin),
  some ("number_of_trips", .ofUInt32 s.trips),
  some ("great_circle_km", .ofOption .ofFloat s.greatCircleKm),
  Value.entry? "haul_category" .ofCase s.haul,
  Value.entry? "country_code" .text s.countryCode,
  some ("impact_score", .ofOption .ofFloat s.impactScore),
  Value.entry? "rfi_adjustment" .ofFloat s.heightMultiplier]

def read (setting : Setting) : Reader TripSnapshot :=
  Reader.record setting "a snapshot of trips" 12 fun fields =>
    TripSnapshot.mk <$> fields.required 0 "transport_mode" Reader.text
      <*> fields.required 1 "origin_location_id" Reader.int64
      <*> fields.required 2 "destination_location_id" Reader.int64
      <*> fields.nullable 3 "origin_name" Reader.text
      <*> fields.nullable 4 "destination_name" Reader.text
      <*> fields.nullable 5 "cabin_class" (Reader.case setting)
      <*> fields.required 6 "number_of_trips" Reader.uint32
      <*> fields.nullable 7 "great_circle_km" Reader.float
      <*> fields.optional 8 "haul_category" (Reader.case setting)
      <*> fields.optional 9 "country_code" Reader.text
      <*> fields.nullable 10 "impact_score" Reader.float
      <*> fields.optional 11 "rfi_adjustment" Reader.float

end TripSnapshot

namespace HeadcountSnapshot

def entries (s : HeadcountSnapshot) : List (Option (String × Value)) := [
  some ("fte", .ofFloat s.positions),
  some ("category", .ofOption .text s.category),
  some ("kg_per_fte", .ofOption .ofFloat s.kgPerPosition)]

def read (setting : Setting) : Reader HeadcountSnapshot :=
  Reader.record setting "a snapshot of staff" 3 fun fields =>
    HeadcountSnapshot.mk <$> fields.required 0 "fte" Reader.float
      <*> fields.nullable 1 "category" Reader.text
      <*> fields.nullable 2 "kg_per_fte" Reader.float

end HeadcountSnapshot

namespace CloudSnapshot

def entries (s : CloudSnapshot) : List (Option (String × Value)) := [
  some ("provider", .text s.provider),
  some ("service", .ofOption .text s.service),
  some ("spending_amount", .ofFloat s.amount),
  some ("kg_co2eq_per_currency_unit", .ofOption .ofFloat s.kgPerUnit)]

def read (setting : Setting) : Reader CloudSnapshot :=
  Reader.record setting "a snapshot of cloud spending" 4 fun fields =>
    CloudSnapshot.mk <$> fields.required 0 "provider" Reader.text
      <*> fields.nullable 1 "service" Reader.text
      <*> fields.required 2 "spending_amount" Reader.float
      <*> fields.nullable 3 "kg_co2eq_per_currency_unit" Reader.float

end CloudSnapshot

namespace ModelSnapshot

def entries (s : ModelSnapshot) : List (Option (String × Value)) := [
  some ("provider", .text s.provider),
  some ("use_case", .ofOption .text s.useCase),
  some ("frequency_per_day", .ofFloat s.requestsPerDay),
  some ("user_count", .ofUInt32 s.users),
  some ("days_per_week", .ofFloat s.daysPerWeek),
  some ("weeks_per_year", .ofFloat s.weeksPerYear),
  some ("g_co2eq_per_unit", .ofOption .ofFloat s.gramsPerRequest)]

def read (setting : Setting) : Reader ModelSnapshot :=
  Reader.record setting "a snapshot of model use" 7 fun fields =>
    ModelSnapshot.mk <$> fields.required 0 "provider" Reader.text
      <*> fields.nullable 1 "use_case" Reader.text
      <*> fields.required 2 "frequency_per_day" Reader.float
      <*> fields.required 3 "user_count" Reader.uint32
      <*> fields.required 4 "days_per_week" Reader.float
      <*> fields.required 5 "weeks_per_year" Reader.float
      <*> fields.nullable 6 "g_co2eq_per_unit" Reader.float

end ModelSnapshot

namespace Snapshot

def entries : Snapshot → List (Option (String × Value))
  | .equipment s => s.entries
  | .flight s => s.entries
  | .train s => s.entries
  | .headcount s => s.entries
  | .externalCloud s => s.entries
  | .externalAi s => s.entries

def toValue (s : Snapshot) : Value :=
  .ofPresent (some ("formula", .ofCase s.formula) :: s.entries)

def readOf (setting : Setting) : Formula → Reader Snapshot
  | .equipment => fun v => .equipment <$> EquipmentSnapshot.read setting v
  | .flight => fun v => .flight <$> TripSnapshot.read setting v
  | .train => fun v => .train <$> TripSnapshot.read setting v
  | .headcount => fun v => .headcount <$> HeadcountSnapshot.read setting v
  | .externalCloud => fun v => .externalCloud <$> CloudSnapshot.read setting v
  | .externalAi => fun v => .externalAi <$> ModelSnapshot.read setting v

def read (setting : Setting) : Reader Snapshot := fun v => do
  let (formula, content) ←
    Reader.taggedWithin setting "a snapshot" "formula" v
  readOf setting.later formula content

end Snapshot

namespace Emission

def toValue (e : Emission) : Value :=
  .ofPresent [
    some ("subject_id", .ofInt64 e.subject),
    some ("emission_type", .ofCase e.kind),
    some ("kg_co2eq", .ofOption .ofFloat e.kg),
    some ("distance_km", .ofOption .ofFloat e.distanceKm),
    some ("annual_kwh", .ofOption .ofFloat e.annualKwh),
    some ("factor_ids_used", .list (e.factors.map .ofInt64)),
    some ("formula_version", .text e.formula),
    some ("computed_at", .ofInstant e.computedAt),
    some ("calculation_inputs", e.snapshot.toValue),
    some ("is_current", .bool e.isCurrent),
    Value.entry? "incomplete_reason" .text e.reason]

def read (setting : Setting) : Reader Emission :=
  Reader.record setting "an emission" 11 fun fields =>
    Emission.mk <$> fields.required 0 "subject_id" Reader.int64
      <*> fields.required 1 "emission_type" (Reader.case setting)
      <*> fields.nullable 2 "kg_co2eq" Reader.float
      <*> fields.nullable 3 "distance_km" Reader.float
      <*> fields.nullable 4 "annual_kwh" Reader.float
      <*> fields.required 5 "factor_ids_used" (Reader.list Reader.int64)
      <*> fields.required 6 "formula_version" Reader.text
      <*> fields.required 7 "computed_at" Reader.instant
      <*> fields.required 8 "calculation_inputs" (Snapshot.read setting)
      <*> fields.required 9 "is_current" Reader.bool
      <*> fields.optional 10 "incomplete_reason" Reader.text

end Emission

end CarbonLedger
