import CarbonLedger.Decimal.Rounding
import CarbonLedger.Emission.Calculation

namespace CarbonLedger.Headcount

def formula : String := "headcount-fte/v1"

def kg (positions kgPerPosition : Float) : Float := Decimal.round2 (positions * kgPerPosition)

def calculate (h : Headcount) (factor : Lookup StaffFactor) : List Calculation :=
  EmissionKind.ofHeadcount.map fun kind =>
    let kgPerPosition := factor.payload?.bind fun f => f.kgPerPosition? kind
    { kind := kind
      kg := kgPerPosition.map (kg h.positions)
      distanceKm := none
      annualKwh := none
      factors := factor.factors
      formula := formula
      snapshot := .headcount ⟨h.positions, h.category, kgPerPosition⟩
      reason := factor.reason? }

end CarbonLedger.Headcount
