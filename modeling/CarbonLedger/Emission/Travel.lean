import CarbonLedger.Emission.Calculation
import CarbonLedger.Travel.Distance

namespace CarbonLedger

namespace Trip

def emissionKind : TransportMode → EmissionKind
  | .plane => .flight
  | .train => .train

def formula : TransportMode → String
  | .plane => "flight-distance/v1"
  | .train => "train-distance/v1"

def toSnapshot : TransportMode → TripSnapshot → Snapshot
  | .plane => .flight
  | .train => .train

def flightKg (distanceKm impactScore heightMultiplier : Float) (trips : UInt32) : Float :=
  Decimal.round2 (distanceKm * impactScore * heightMultiplier * trips.toFloat)

def trainKg (distanceKm impactScore : Float) (trips : UInt32) : Float :=
  Decimal.round2 (distanceKm * impactScore * trips.toFloat)

def snapshot (mode : TransportMode) (origin destination : Location) (cabin : Option CabinClass)
    (trips : UInt32) (greatCircleKm : Float) : TripSnapshot where
  mode := Cases.name mode
  origin := origin.id
  destination := destination.id
  originName := some origin.name
  destinationName := some destination.name
  cabin := cabin
  trips := trips
  greatCircleKm := some greatCircleKm
  haul := none
  countryCode := none
  impactScore := none
  heightMultiplier := none

def calculateFlight (origin destination : Location) (cabin : Option CabinClass) (trips : UInt32)
    (factor : Lookup FlightFactor) : Except OffTheGlobe Calculation := do
  let greatCircleKm ← origin.greatCircleKm destination
  let distanceKm := TransportMode.plane.distanceKm greatCircleKm
  let snapshot := { snapshot .plane origin destination cabin trips greatCircleKm with
    haul := some (.ofKm distanceKm)
    impactScore := factor.payload?.map (·.impactScore)
    heightMultiplier := factor.payload?.map (·.heightMultiplier) }
  return {
    kind := .flight
    kg := factor.payload?.map fun f =>
      flightKg distanceKm f.impactScore f.heightMultiplier trips
    distanceKm := some (Decimal.round2 distanceKm)
    annualKwh := none
    factors := factor.factors
    formula := formula .plane
    snapshot := .flight snapshot
    reason := factor.reason? }

def calculateTrain (origin destination : Location) (cabin : Option CabinClass) (trips : UInt32)
    (countryCode : String) (factor : Lookup TrainFactor) : Except OffTheGlobe Calculation := do
  let greatCircleKm ← origin.greatCircleKm destination
  let distanceKm := TransportMode.train.distanceKm greatCircleKm
  let snapshot := { snapshot .train origin destination cabin trips greatCircleKm with
    countryCode := some countryCode
    impactScore := factor.payload?.map (·.impactScore) }
  return {
    kind := .train
    kg := factor.payload?.map fun f => trainKg distanceKm f.impactScore trips
    distanceKm := some distanceKm
    annualKwh := none
    factors := factor.factors
    formula := formula .train
    snapshot := .train snapshot
    reason := factor.reason? }

def unknownLocation (mode : TransportMode) (t : Trip) (missing : Int64) : Calculation where
  kind := emissionKind mode
  kg := none
  distanceKm := none
  annualKwh := none
  factors := []
  formula := formula mode
  snapshot := toSnapshot mode {
    mode := Cases.name mode
    origin := t.origin
    destination := t.destination
    originName := none
    destinationName := none
    cabin := t.cabin
    trips := t.trips
    greatCircleKm := none
    haul := none
    countryCode := none
    impactScore := none
    heightMultiplier := none }
  reason := some ("unknown location " ++ toString missing.toInt)

end Trip

end CarbonLedger
