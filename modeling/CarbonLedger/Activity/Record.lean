import CarbonLedger.Travel.Basic

namespace CarbonLedger

inductive RecordKind
  | equipment
  | travel
  | headcount
  | externalCloud
  | externalAi
  deriving DecidableEq, Repr

instance : Cases RecordKind where
  cases := [.equipment, .travel, .headcount, .externalCloud, .externalAi]
  name
    | .equipment => "equipment"
    | .travel => "travel"
    | .headcount => "headcount"
    | .externalCloud => "external_cloud"
    | .externalAi => "external_ai"

inductive EquipmentStatus
  | inService
  | inStock
  | decommissioned
  deriving DecidableEq, Repr

instance : Cases EquipmentStatus where
  cases := [.inService, .inStock, .decommissioned]
  name
    | .inService => "in_service"
    | .inStock => "in_stock"
    | .decommissioned => "decommissioned"

def EquipmentStatus.isInService (s : EquipmentStatus) : Bool := s == .inService

inductive Usage
  | hours (active passive : Float)
  | percent (active passive : Float)

namespace Usage

def hoursPerWeek (u : Usage) (weekHours : Float) : Float × Float :=
  match u with
  | .hours active passive => (active, passive)
  | .percent active passive => (active / 100.0 * weekHours, passive / 100.0 * weekHours)

def percentages? : Usage → Option (Float × Float)
  | .hours _ _ => none
  | .percent active passive => some (active, passive)

end Usage

structure EquipmentUse where
  submodule : String
  equipmentClass : String
  subClass : Option String
  status : EquipmentStatus
  usage : Usage
  activeW : Option Float
  standbyW : Option Float
  countryCode : Option String

structure Trip where
  origin : Int64
  destination : Int64
  mode : String
  cabin : Option CabinClass
  trips : UInt32

structure Headcount where
  positions : Float
  category : Option String

structure CloudSpend where
  provider : String
  service : Option String
  amount : Float

structure ModelUse where
  provider : String
  useCase : Option String
  requestsPerDay : Float
  users : UInt32

inductive Activity
  | equipment (use : EquipmentUse)
  | travel (trip : Trip)
  | headcount (staff : Headcount)
  | externalCloud (spend : CloudSpend)
  | externalAi (use : ModelUse)

def Activity.kind : Activity → RecordKind
  | .equipment _ => .equipment
  | .travel _ => .travel
  | .headcount _ => .headcount
  | .externalCloud _ => .externalCloud
  | .externalAi _ => .externalAi

structure ActivityRecord where
  subject : Int64
  activity : Activity

end CarbonLedger
