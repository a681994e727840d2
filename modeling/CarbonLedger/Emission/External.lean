import CarbonLedger.Emission.Calculation

namespace CarbonLedger

namespace CloudSpend

def formula : String := "cloud-spend/v1"

def kg (amount kgPerUnit : Float) : Float := amount * kgPerUnit

def calculate (s : CloudSpend) (factor : Lookup SpendFactor) : Calculation :=
  let kgPerUnit := factor.payload?.map (·.kgPerUnit)
  { kind := .externalCloud
    kg := kgPerUnit.map (kg s.amount)
    distanceKm := none
    annualKwh := none
    factors := factor.factors
    formula := formula
    snapshot := .externalCloud ⟨s.provider, s.service, s.amount, kgPerUnit⟩
    reason := factor.reason? }

end CloudSpend

namespace ModelUse

def formula : String := "ai-usage/v1"

def daysPerWeek : Float := 5.0

def weeksPerYear : Float := 46.0

def kg (requestsPerDay daysPerWeek weeksPerYear : Float) (users : UInt32)
    (gramsPerRequest : Float) : Float :=
  requestsPerDay * daysPerWeek * weeksPerYear * users.toFloat * gramsPerRequest / 1000.0

def calculate (u : ModelUse) (factor : Lookup RequestFactor) : Calculation :=
  let grams := factor.payload?.map (·.gramsPerRequest)
  { kind := .externalAi
    kg := grams.map (kg u.requestsPerDay daysPerWeek weeksPerYear u.users)
    distanceKm := none
    annualKwh := none
    factors := factor.factors
    formula := formula
    snapshot := .externalAi
      ⟨u.provider, u.useCase, u.requestsPerDay, u.users, daysPerWeek, weeksPerYear, grams⟩
    reason := factor.reason? }

end ModelUse

end CarbonLedger
