import CarbonLedger.Emission.Snapshot
import CarbonLedger.Factor.Basic

namespace CarbonLedger

structure Emission where
  subject : Int64
  kind : EmissionKind
  kg : Option Float
  distanceKm : Option Float
  annualKwh : Option Float
  factors : List Int64
  formula : String
  computedAt : Instant
  snapshot : Snapshot
  isCurrent : Bool
  reason : Option String

namespace Emission

def isComplete (e : Emission) : Bool := e.kg.isSome

def asCurrent (e : Emission) : Emission := { e with isCurrent := true }

def asHistory (e : Emission) : Emission := { e with isCurrent := false }

def gap? (e : Emission) : Option String :=
  if e.isComplete then none
  else some ("no " ++ e.kind.name ++ " emission computed for subject " ++
    toString e.subject.toInt ++ ": " ++ e.reason.getD "unknown reason")

/-- An emission with no gap to tell is a complete one. -/
theorem gap?_eq_none_iff {e : Emission} : e.gap? = none ↔ e.isComplete = true := by
  rw [gap?]
  split <;> simp_all

end Emission

end CarbonLedger
