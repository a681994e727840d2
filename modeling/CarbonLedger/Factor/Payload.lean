import CarbonLedger.Factor.Data

namespace CarbonLedger

inductive PayloadError
  | wrongKind (factor : Int64) (wanted actual : EmissionKind)
  | missing (factor : Int64) (key : String)
  deriving DecidableEq, Repr

def PayloadError.message : PayloadError → String
  | .wrongKind factor wanted actual =>
    "factor " ++ toString factor.toInt ++ " is a " ++ actual.name ++ " factor, expected " ++
      wanted.name
  | .missing factor key => "factor " ++ toString factor.toInt ++ " has no usable value for " ++ key

namespace Factor

def ofKind (f : Factor) (wanted : EmissionKind) : Except PayloadError Unit :=
  if f.kind = wanted then .ok () else .error (.wrongKind f.id wanted f.kind)

def need (f : Factor) (key : String) : Except PayloadError Float :=
  match f.quantities.usable? key with
  | some x => .ok x
  | none => .error (.missing f.id key)

end Factor

structure PowerRating where
  factor : Int64
  activeW : Option Float
  standbyW : Option Float

structure GridFactor where
  factor : Int64
  kgPerKwh : Float

structure FlightFactor where
  factor : Int64
  impactScore : Float
  heightMultiplier : Float

structure TrainFactor where
  factor : Int64
  impactScore : Float

structure StaffFactor where
  factor : Int64
  foodKg : Float
  wasteKg : Float
  transportKg : Float
  greyEnergyKg : Float

structure SpendFactor where
  factor : Int64
  kgPerUnit : Float

structure RequestFactor where
  factor : Int64
  gramsPerRequest : Float

/-- The payloads: how they are read off a factor, and which factor they come from. Until when the
factor holds does not matter. -/
class Payload (α : Type) where
  ofFactor : Factor → Except PayloadError α
  factor : α → Int64
  ofFactor_ending : ∀ (f : Factor) (e : Option Instant),
    ofFactor { f with validTo := e } = ofFactor f := by intro _ _; rfl

instance : Payload PowerRating where
  ofFactor f := do
    f.ofKind .equipment
    return ⟨f.id, f.quantities.usable? "active_power_w", f.quantities.usable? "standby_power_w"⟩
  factor p := p.factor

instance : Payload GridFactor where
  ofFactor f := do
    f.ofKind .electricityMix
    return ⟨f.id, ← f.need "kg_co2eq_per_kwh"⟩
  factor p := p.factor

instance : Payload FlightFactor where
  ofFactor f := do
    f.ofKind .flight
    return ⟨f.id, ← f.need "impact_score", ← f.need "rfi_adjustment"⟩
  factor p := p.factor

instance : Payload TrainFactor where
  ofFactor f := do
    f.ofKind .train
    return ⟨f.id, ← f.need "impact_score"⟩
  factor p := p.factor

instance : Payload StaffFactor where
  ofFactor f := do
    f.ofKind .headcount
    return ⟨f.id, ← f.need "food_kg", ← f.need "waste_kg", ← f.need "transport_kg",
      ← f.need "grey_energy_kg"⟩
  factor p := p.factor

instance : Payload SpendFactor where
  ofFactor f := do
    f.ofKind .externalCloud
    return ⟨f.id, ← f.need "kg_co2eq_per_currency_unit"⟩
  factor p := p.factor

instance : Payload RequestFactor where
  ofFactor f := do
    f.ofKind .externalAi
    return ⟨f.id, ← f.need "g_co2eq_per_unit"⟩
  factor p := p.factor

def StaffFactor.kgPerPosition? (p : StaffFactor) : EmissionKind → Option Float
  | .food => some p.foodKg
  | .waste => some p.wasteKg
  | .transport => some p.transportKg
  | .greyEnergy => some p.greyEnergyKg
  | _ => none

def PowerRating.toValue (p : PowerRating) : Value :=
  .ofEntries [("factor_id", .ofInt64 p.factor), ("active_power_w", .ofOption .ofFloat p.activeW),
    ("standby_power_w", .ofOption .ofFloat p.standbyW)]

def PowerRating.read (setting : Setting) : Reader PowerRating :=
  Reader.record setting "a power rating" 3 fun fields =>
    PowerRating.mk <$> fields.required 0 "factor_id" Reader.int64
      <*> fields.nullable 1 "active_power_w" Reader.float
      <*> fields.nullable 2 "standby_power_w" Reader.float

def GridFactor.toValue (p : GridFactor) : Value :=
  .ofEntries [("factor_id", .ofInt64 p.factor), ("kg_co2eq_per_kwh", .ofFloat p.kgPerKwh)]

def GridFactor.read (setting : Setting) : Reader GridFactor :=
  Reader.record setting "a grid factor" 2 fun fields =>
    GridFactor.mk <$> fields.required 0 "factor_id" Reader.int64
      <*> fields.required 1 "kg_co2eq_per_kwh" Reader.float

def FlightFactor.toValue (p : FlightFactor) : Value :=
  .ofEntries [("factor_id", .ofInt64 p.factor), ("impact_score", .ofFloat p.impactScore),
    ("rfi_adjustment", .ofFloat p.heightMultiplier)]

def FlightFactor.read (setting : Setting) : Reader FlightFactor :=
  Reader.record setting "a flight factor" 3 fun fields =>
    FlightFactor.mk <$> fields.required 0 "factor_id" Reader.int64
      <*> fields.required 1 "impact_score" Reader.float
      <*> fields.required 2 "rfi_adjustment" Reader.float

def TrainFactor.toValue (p : TrainFactor) : Value :=
  .ofEntries [("factor_id", .ofInt64 p.factor), ("impact_score", .ofFloat p.impactScore)]

def TrainFactor.read (setting : Setting) : Reader TrainFactor :=
  Reader.record setting "a train factor" 2 fun fields =>
    TrainFactor.mk <$> fields.required 0 "factor_id" Reader.int64
      <*> fields.required 1 "impact_score" Reader.float

def StaffFactor.toValue (p : StaffFactor) : Value :=
  .ofEntries [("factor_id", .ofInt64 p.factor), ("food_kg", .ofFloat p.foodKg),
    ("waste_kg", .ofFloat p.wasteKg), ("transport_kg", .ofFloat p.transportKg),
    ("grey_energy_kg", .ofFloat p.greyEnergyKg)]

def StaffFactor.read (setting : Setting) : Reader StaffFactor :=
  Reader.record setting "a staff factor" 5 fun fields =>
    StaffFactor.mk <$> fields.required 0 "factor_id" Reader.int64
      <*> fields.required 1 "food_kg" Reader.float
      <*> fields.required 2 "waste_kg" Reader.float
      <*> fields.required 3 "transport_kg" Reader.float
      <*> fields.required 4 "grey_energy_kg" Reader.float

def SpendFactor.toValue (p : SpendFactor) : Value :=
  .ofEntries [("factor_id", .ofInt64 p.factor),
    ("kg_co2eq_per_currency_unit", .ofFloat p.kgPerUnit)]

def SpendFactor.read (setting : Setting) : Reader SpendFactor :=
  Reader.record setting "a spend factor" 2 fun fields =>
    SpendFactor.mk <$> fields.required 0 "factor_id" Reader.int64
      <*> fields.required 1 "kg_co2eq_per_currency_unit" Reader.float

def RequestFactor.toValue (p : RequestFactor) : Value :=
  .ofEntries [("factor_id", .ofInt64 p.factor), ("g_co2eq_per_unit", .ofFloat p.gramsPerRequest)]

def RequestFactor.read (setting : Setting) : Reader RequestFactor :=
  Reader.record setting "a request factor" 2 fun fields =>
    RequestFactor.mk <$> fields.required 0 "factor_id" Reader.int64
      <*> fields.required 1 "g_co2eq_per_unit" Reader.float

end CarbonLedger
