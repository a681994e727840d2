import CarbonLedger.Emission.Result
import CarbonLedger.Factor.Payload

namespace CarbonLedger

structure Unresolved where
  kind : EmissionKind
  classification : Classification
  detail : Option String

def Unresolved.message (u : Unresolved) : String :=
  "missing " ++ u.kind.name ++ " factor for classification " ++ u.classification.shown ++
    match u.detail with
    | some detail => " (" ++ detail ++ ")"
    | none => ""

abbrev Lookup (α : Type) := Except Unresolved α

namespace Lookup

variable {α : Type}

def payload? : Lookup α → Option α
  | .ok a => some a
  | .error _ => none

def reason? : Lookup α → Option String
  | .ok _ => none
  | .error u => some u.message

def factors [Payload α] : Lookup α → List Int64
  | .ok a => [Payload.factor a]
  | .error _ => []

end Lookup

structure Calculation where
  kind : EmissionKind
  kg : Option Float
  distanceKm : Option Float
  annualKwh : Option Float
  factors : List Int64
  formula : String
  snapshot : Snapshot
  reason : Option String

def Calculation.toEmission (c : Calculation) (subject : Int64) (computedAt : Instant) :
    Emission where
  subject := subject
  kind := c.kind
  kg := c.kg
  distanceKm := c.distanceKm
  annualKwh := c.annualKwh
  factors := c.factors
  formula := c.formula
  computedAt := computedAt
  snapshot := c.snapshot
  isCurrent := false
  reason := c.reason

end CarbonLedger
