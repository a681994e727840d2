import CarbonLedger.Activity.Record

namespace CarbonLedger

inductive GridSource
  | factor
  | default
  deriving DecidableEq, Repr

instance : Cases GridSource where
  cases := [.factor, .default]
  name
    | .factor => "factor"
    | .default => "default"

structure EquipmentSnapshot where
  submodule : String
  equipmentClass : String
  subClass : Option String
  status : EquipmentStatus
  activeHours : Float
  passiveHours : Float
  activePercent : Option Float
  passivePercent : Option Float
  activeW : Option Float
  standbyW : Option Float
  /-- Whether the record gave a rating of its own. -/
  overridden : Bool
  weeksPerYear : Float
  hoursPerWeek : Float
  countryCode : String
  kgPerKwh : Float
  gridSource : GridSource

structure TripSnapshot where
  mode : String
  origin : Int64
  destination : Int64
  originName : Option String
  destinationName : Option String
  cabin : Option CabinClass
  trips : UInt32
  greatCircleKm : Option Float
  haul : Option HaulCategory
  countryCode : Option String
  impactScore : Option Float
  heightMultiplier : Option Float

structure HeadcountSnapshot where
  positions : Float
  category : Option String
  kgPerPosition : Option Float

structure CloudSnapshot where
  provider : String
  service : Option String
  amount : Float
  kgPerUnit : Option Float

structure ModelSnapshot where
  provider : String
  useCase : Option String
  requestsPerDay : Float
  users : UInt32
  daysPerWeek : Float
  weeksPerYear : Float
  gramsPerRequest : Option Float

inductive Snapshot
  | equipment (s : EquipmentSnapshot)
  | flight (s : TripSnapshot)
  | train (s : TripSnapshot)
  | headcount (s : HeadcountSnapshot)
  | externalCloud (s : CloudSnapshot)
  | externalAi (s : ModelSnapshot)

end CarbonLedger
