import CarbonLedger.Proofs.EvaluationCases

namespace CarbonLedger

namespace EquipmentSnapshot

def part? (hours : Float) (watts : Option Float) : Option Float :=
  match watts with
  | some w => some (hours * w)
  | none => if hours.abs < EquipmentUse.epsilon then some 0.0 else none

def kg? (s : EquipmentSnapshot) : Option Float := do
  let active ← part? s.activeHours s.activeW
  let passive ← part? s.passiveHours s.standbyW
  let kwh := (active + passive) * s.weeksPerYear / 1000.0
  return if s.status.isInService then Decimal.round2 (kwh * s.kgPerKwh) else 0.0

end EquipmentSnapshot

namespace TripSnapshot

def flightKg? (s : TripSnapshot) : Option Float := do
  let km := (← s.greatCircleKm) + 95.0
  return Decimal.round2 (km * (← s.impactScore) * (← s.heightMultiplier) * s.trips.toFloat)

def trainKg? (s : TripSnapshot) : Option Float := do
  let km := Decimal.roundWhole ((← s.greatCircleKm) * 1.2)
  return Decimal.round2 (km * (← s.impactScore) * s.trips.toFloat)

end TripSnapshot

/-- The kilograms that a snapshot stands for, if it holds all that they take. -/
def Snapshot.kg? : Snapshot → Option Float
  | .equipment s => s.kg?
  | .flight s => s.flightKg?
  | .train s => s.trainKg?
  | .headcount s => s.kgPerPosition.map fun kg => Decimal.round2 (s.positions * kg)
  | .externalCloud s => s.kgPerUnit.map fun kg => s.amount * kg
  | .externalAi s => s.gramsPerRequest.map fun g =>
    s.requestsPerDay * s.daysPerWeek * s.weeksPerYear * s.users.toFloat * g / 1000.0

namespace Basis

theorem kg_equipmentSnapshot (s : EquipmentSnapshot) :
    s.kg? = ((EquipmentUse.weeklyWattHours? s.activeHours s.passiveHours s.activeW s.standbyW).map
      (EquipmentUse.yearlyKwh · s.weeksPerYear)).map
        (EquipmentUse.yearlyKg s.status · s.kgPerKwh) := by
  have hpart : EquipmentSnapshot.part? = EquipmentUse.wattHours? := rfl
  rw [EquipmentSnapshot.kg?, EquipmentUse.weeklyWattHours?, hpart]
  cases EquipmentUse.wattHours? s.activeHours s.activeW with
  | none => rfl
  | some active =>
    cases EquipmentUse.wattHours? s.passiveHours s.standbyW <;> rfl

/-- Equipment has the kilograms that its snapshot tells. -/
theorem kg_equipment (u : EquipmentUse) (power : Lookup PowerRating) (grid : GridIntensity)
    (s : Settings) : (u.calculate power grid s).kg = (u.snapshot power grid s).kg? := by
  -- The calculation reads the record, the grid and the settings where the snapshot copies them.
  rw [kg_equipmentSnapshot]
  rfl

section Trips
variable {trips : UInt32} {km : Float} {s : TripSnapshot} {c : Calculation}

theorem kg_flightOver {factor : Lookup FlightFactor} (h : Trip.FlightOver trips factor km s c) :
    c.kg = s.flightKg? := by
  rw [h.kg, TripSnapshot.flightKg?, h.greatCircle, h.impactScore, h.heightMultiplier, h.count]
  cases factor <;> rfl

theorem kg_trainOver {factor : Lookup TrainFactor} (h : Trip.TrainOver trips factor km s c) :
    c.kg = s.trainKg? := by
  rw [h.kg, TripSnapshot.trainKg?, h.greatCircle, h.impactScore, h.count]
  cases factor <;> rfl

end Trips

/-- Every calculation has the kilograms that its snapshot tells. -/
theorem Works.kg_eq {b : Basis} {a : Activity} {cs : List Calculation} (h : b.Works a cs) :
    ∀ c ∈ cs, c.kg = c.snapshot.kg? := by
  cases h with
  | equipment u =>
    simp only [List.forall_mem_singleton]
    exact kg_equipment u _ _ _
  | unknownLocation t mode missing =>
    simp only [List.forall_mem_singleton]
    cases mode <;> rfl
  | flight t hover =>
    simp only [List.forall_mem_singleton]
    rw [hover.snapshot]
    exact kg_flightOver hover
  | train t hover =>
    simp only [List.forall_mem_singleton]
    rw [hover.snapshot]
    exact kg_trainOver hover
  | headcount h =>
    intro c hc
    obtain ⟨kind, _, rfl⟩ := List.mem_map.mp hc
    rfl
  | externalCloud s =>
    simp only [List.forall_mem_singleton]
    rfl
  | externalAi u =>
    simp only [List.forall_mem_singleton]
    rfl

/-- Every emission can be worked out again from its own snapshot: its kilograms, and that it has
none, are what the formulas make of the fields of the snapshot and nothing else. -/
theorem evaluate_from_snapshots {b : Basis} {r : ActivityRecord} {computedAt : Instant}
    {e : Evaluation} (h : b.evaluate r computedAt = .ok e) :
    ∀ m ∈ e.emissions, m.kg = m.snapshot.kg? := by
  obtain ⟨cs, hworks, he⟩ := works_of_evaluate h
  rw [he]
  intro m hm
  obtain ⟨c, hc, rfl⟩ := List.mem_map.mp hm
  exact hworks.kg_eq c hc

def lamp : ActivityRecord :=
  ⟨4, .equipment ⟨"office", "lamp", none, .inService, .hours 40.0 0.0, some 100.0, none, none⟩⟩

/-- A lamp of 26 kilograms a year. -/
theorem lamp_from_snapshot :
    ∃ e, (⟨.empty, .empty, .default, none⟩ : Basis).evaluate lamp ⟨9, 0⟩ = .ok e ∧
      e.emissions.map (·.kg) = [some 26.0] ∧ e.emissions.map (·.snapshot.kg?) = [some 26.0] ∧
      ∀ m ∈ e.emissions, m.kg = m.snapshot.kg? := by
  obtain ⟨e, he⟩ : ∃ e, (⟨.empty, .empty, .default, none⟩ : Basis).evaluate lamp ⟨9, 0⟩ = .ok e :=
    ⟨_, rfl⟩
  have hkg : e.emissions.map (·.kg) = [some 26.0] := by
    cases he
    decide +kernel
  have hsnapshots := evaluate_from_snapshots he
  have hsame : e.emissions.map (·.snapshot.kg?) = e.emissions.map (·.kg) :=
    List.map_congr_left fun m hm => (hsnapshots m hm).symm
  exact ⟨e, he, hkg, hsame.trans hkg, hsnapshots⟩

end Basis

end CarbonLedger
