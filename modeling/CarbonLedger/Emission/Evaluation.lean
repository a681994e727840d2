import CarbonLedger.Emission.Equipment
import CarbonLedger.Emission.External
import CarbonLedger.Emission.Headcount
import CarbonLedger.Emission.Travel
import CarbonLedger.Factor.Catalog

/-! Evaluating an activity. A factor that is not found makes the emission incomplete; only a trip
that cannot be placed is an error. -/

namespace CarbonLedger

structure Ambiguity where
  kind : EmissionKind
  chosen : Int64
  others : List Int64
  deriving DecidableEq, Repr

inductive TripError
  | mode (e : UnknownMode)
  | place (e : OffTheGlobe)

def TripError.message : TripError → String
  | .mode e => e.message
  | .place e => e.message

structure Basis where
  catalog : Catalog
  directory : Directory
  settings : Settings
  asOf : Option Instant

structure Outcome where
  calculations : List Calculation
  ambiguities : List Ambiguity

structure Evaluation where
  emissions : List Emission
  ambiguities : List Ambiguity

namespace Basis

/-- A query under the basis: at its time if it has one, and refusing ties if it does. -/
def adjust (b : Basis) (q : Query) : Query :=
  { q with
    asOf := b.asOf.or q.asOf
    ties := if b.settings.ties = .refuse then .refuse else q.ties }

def resolve (b : Basis) (q : Query) : Option Resolution := b.catalog.resolve (b.adjust q)

def require (b : Basis) (q : Query) : Except Unresolved Resolution :=
  match b.resolve q with
  | some r => .ok r
  | none => .error ⟨q.kind, q.classification, none⟩

def ambiguity? (r : Resolution) : Option Ambiguity :=
  if r.rivals.isEmpty then none else some ⟨r.factor.kind, r.factor.id, r.rivals⟩

/-- Looks up a payload. The second part tells the tie, if there was one. -/
def lookup {α : Type} [Payload α] (b : Basis) (q : Query) : Lookup α × Option Ambiguity :=
  match b.resolve q with
  | none => (.error ⟨q.kind, q.classification, none⟩, none)
  | some r =>
    match Payload.ofFactor r.factor with
    | .ok a => (.ok a, ambiguity? r)
    | .error e => (.error ⟨q.kind, q.classification, some e.message⟩, ambiguity? r)

def gridCountry (b : Basis) (u : EquipmentUse) : String :=
  Text.upper ((u.countryCode.bind Text.filled?).getD b.settings.domesticCountry)

def grid (b : Basis) (countryCode : String) : GridIntensity × Option Ambiguity :=
  match b.lookup (α := GridFactor) (.electricityMix countryCode) with
  | (.ok f, a) => (.ofFactor countryCode f, a)
  | (.error _, a) => (.ofSettings countryCode b.settings, a)

def equipment (b : Basis) (u : EquipmentUse) : Outcome :=
  let (power, tie) := b.lookup (.equipment u.submodule u.equipmentClass u.subClass)
  let (grid, gridTie) := b.grid (b.gridCountry u)
  ⟨[u.calculate power grid b.settings], tie.toList ++ gridTie.toList⟩

def flight (b : Basis) (t : Trip) (origin destination : Location) : Except TripError Outcome := do
  let km ← (TransportMode.plane.distance origin destination).mapError .place
  let (factor, tie) := b.lookup (.flight (.ofKm km))
  let c ← (Trip.calculateFlight origin destination t.cabin t.trips factor).mapError .place
  return ⟨[c], tie.toList⟩

def train (b : Basis) (t : Trip) (origin destination : Location) : Except TripError Outcome := do
  let country := Country.ofTrainTrip b.settings.domesticCountry origin.country?
    destination.country?
  let (factor, tie) := b.lookup (.train country)
  let c ← (Trip.calculateTrain origin destination t.cabin t.trips country factor).mapError .place
  return ⟨[c], tie.toList⟩

/-- Evaluates trips. An unknown mode is an error whatever the locations; a location that is in no
directory makes the trip incomplete, the origin first. -/
def travel (b : Basis) (t : Trip) : Except TripError Outcome := do
  let mode ← (TransportMode.ofText t.mode).mapError .mode
  match b.directory.find? t.origin with
  | none => return ⟨[t.unknownLocation mode t.origin], []⟩
  | some origin =>
    match b.directory.find? t.destination with
    | none => return ⟨[t.unknownLocation mode t.destination], []⟩
    | some destination =>
      match mode with
      | .plane => b.flight t origin destination
      | .train => b.train t origin destination

def headcount (b : Basis) (h : Headcount) : Outcome :=
  let (factor, tie) := b.lookup (.headcount h.category)
  ⟨h.calculate factor, tie.toList⟩

def externalCloud (b : Basis) (s : CloudSpend) : Outcome :=
  let (factor, tie) := b.lookup (.externalCloud s.provider s.service)
  ⟨[s.calculate factor], tie.toList⟩

def externalAi (b : Basis) (u : ModelUse) : Outcome :=
  let (factor, tie) := b.lookup (.externalAi u.provider u.useCase)
  ⟨[u.calculate factor], tie.toList⟩

def outcome (b : Basis) : Activity → Except TripError Outcome
  | .equipment u => .ok (b.equipment u)
  | .travel t => b.travel t
  | .headcount h => .ok (b.headcount h)
  | .externalCloud s => .ok (b.externalCloud s)
  | .externalAi u => .ok (b.externalAi u)

def evaluate (b : Basis) (r : ActivityRecord) (computedAt : Instant) :
    Except TripError Evaluation := do
  let o ← b.outcome r.activity
  return ⟨o.calculations.map (·.toEmission r.subject computedAt), o.ambiguities⟩

end Basis

end CarbonLedger
