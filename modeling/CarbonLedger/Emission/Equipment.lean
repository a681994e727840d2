import CarbonLedger.Decimal.Rounding
import CarbonLedger.Emission.Calculation
import CarbonLedger.Emission.Settings

namespace CarbonLedger

structure GridIntensity where
  countryCode : String
  kgPerKwh : Float
  /-- The factor it comes from; none for the default. -/
  factor : Option Int64

namespace GridIntensity

def ofFactor (countryCode : String) (f : GridFactor) : GridIntensity :=
  ⟨countryCode, f.kgPerKwh, some f.factor⟩

def ofSettings (countryCode : String) (s : Settings) : GridIntensity :=
  ⟨countryCode, s.defaultKgPerKwh, none⟩

def source (g : GridIntensity) : GridSource := if g.factor.isSome then .factor else .default

end GridIntensity

namespace EquipmentUse

def formula : String := "equipment-power/v1"

/-- The distance from one to the next double. Hours nearer to zero than that are none. -/
def epsilon : Float := .ofBits 0x3CB0000000000000

/-- Watt hours of so many hours at a rating. Without a rating there are none, and that is known only
if there are no hours. -/
def wattHours? (hours : Float) (watts : Option Float) : Option Float :=
  match watts with
  | some w => some (hours * w)
  | none => if hours.abs < epsilon then some 0.0 else none

def weeklyWattHours? (activeHours passiveHours : Float) (activeW standbyW : Option Float) :
    Option Float :=
  match wattHours? activeHours activeW, wattHours? passiveHours standbyW with
  | some active, some passive => some (active + passive)
  | _, _ => none

def yearlyKwh (weeklyWattHours weeksPerYear : Float) : Float :=
  weeklyWattHours * weeksPerYear / 1000.0

def yearlyKg (status : EquipmentStatus) (kwh kgPerKwh : Float) : Float :=
  if status.isInService then Decimal.round2 (kwh * kgPerKwh) else 0.0

def effectiveActiveW (u : EquipmentUse) (power : Lookup PowerRating) : Option Float :=
  u.activeW.or (power.payload?.bind (·.activeW))

def effectiveStandbyW (u : EquipmentUse) (power : Lookup PowerRating) : Option Float :=
  u.standbyW.or (power.payload?.bind (·.standbyW))

def factorsUsed (u : EquipmentUse) (power : Lookup PowerRating) (grid : GridIntensity) :
    List Int64 :=
  let fromFactor := (u.activeW.isNone && (u.effectiveActiveW power).isSome) ||
    (u.standbyW.isNone && (u.effectiveStandbyW power).isSome)
  (if fromFactor then power.factors else []) ++ grid.factor.toList

def snapshot (u : EquipmentUse) (power : Lookup PowerRating) (grid : GridIntensity)
    (s : Settings) : EquipmentSnapshot where
  submodule := u.submodule
  equipmentClass := u.equipmentClass
  subClass := u.subClass
  status := u.status
  activeHours := (u.usage.hoursPerWeek s.hoursPerWeek).1
  passiveHours := (u.usage.hoursPerWeek s.hoursPerWeek).2
  activePercent := u.usage.percentages?.map (·.1)
  passivePercent := u.usage.percentages?.map (·.2)
  activeW := u.effectiveActiveW power
  standbyW := u.effectiveStandbyW power
  overridden := u.activeW.isSome || u.standbyW.isSome
  weeksPerYear := s.weeksPerYear
  hoursPerWeek := s.hoursPerWeek
  countryCode := grid.countryCode
  kgPerKwh := grid.kgPerKwh
  gridSource := grid.source

def calculate (u : EquipmentUse) (power : Lookup PowerRating) (grid : GridIntensity)
    (s : Settings) : Calculation :=
  let snapshot := u.snapshot power grid s
  let kwh? := (weeklyWattHours? snapshot.activeHours snapshot.passiveHours snapshot.activeW
    snapshot.standbyW).map (yearlyKwh · s.weeksPerYear)
  { kind := .equipment
    kg := kwh?.map fun kwh => yearlyKg u.status kwh grid.kgPerKwh
    distanceKm := none
    annualKwh := kwh?.map Decimal.round2
    factors := u.factorsUsed power grid
    formula := formula
    snapshot := .equipment snapshot
    reason := if kwh?.isSome then none
      else power.reason?.or (some "missing power rating for equipment with non-zero usage") }

end EquipmentUse

end CarbonLedger
