import CarbonLedger.Emission.Equipment
import Mathlib.Tactic.ByContra

namespace CarbonLedger

structure PowerDraw where
  hours : Float
  own : Option Float
  ofFactor : Option Float

namespace PowerDraw

def of (hours : Float) (own : Option Float) (power : Lookup PowerRating)
    (rating : PowerRating → Option Float) : PowerDraw where
  hours := hours
  own := own
  ofFactor := match power with
    | .ok f => rating f
    | .error _ => none

def rating (d : PowerDraw) : Option Float :=
  match d.own with
  | some w => some w
  | none => d.ofFactor

def RatedByFactor (d : PowerDraw) : Prop := d.own = none ∧ ∃ w, d.ofFactor = some w

/-- There are hours, and no rating for them. Hours that are no number count as some. -/
def Unknown (d : PowerDraw) : Prop := d.rating = none ∧ ¬ d.hours.abs < EquipmentUse.epsilon

def wattHours (d : PowerDraw) : Float :=
  match d.rating with
  | some w => d.hours * w
  | none => 0.0

theorem rating_of (hours : Float) (own : Option Float) (power : Lookup PowerRating)
    (rating : PowerRating → Option Float) :
    (of hours own power rating).rating = own.or (power.payload?.bind rating) := by
  cases own <;> cases power <;> rfl

theorem ratedByFactor_iff (d : PowerDraw) :
    (d.own.isNone && d.rating.isSome) = true ↔ d.RatedByFactor := by
  rw [RatedByFactor, rating, Bool.and_eq_true, Option.isNone_iff_eq_none, Option.isSome_iff_exists]
  refine and_congr_right fun hown => ?_
  rw [hown]

end PowerDraw

namespace EquipmentUse

def activeDraw (u : EquipmentUse) (power : Lookup PowerRating) (weekHours : Float) : PowerDraw :=
  let hours := match u.usage with
    | .hours active _ => active
    | .percent active _ => active / 100.0 * weekHours
  .of hours u.activeW power (·.activeW)

def standbyDraw (u : EquipmentUse) (power : Lookup PowerRating) (weekHours : Float) : PowerDraw :=
  let hours := match u.usage with
    | .hours _ passive => passive
    | .percent _ passive => passive / 100.0 * weekHours
  .of hours u.standbyW power (·.standbyW)

def missingRating (power : Lookup PowerRating) : String :=
  match power with
  | .error missing => missing.message
  | .ok _ => "missing power rating for equipment with non-zero usage"

section Draws
variable {d active standby : PowerDraw}

theorem wattHours?_eq_none_iff : wattHours? d.hours d.rating = none ↔ d.Unknown := by
  cases hrating : d.rating <;> simp [wattHours?, PowerDraw.Unknown, hrating]

theorem wattHours?_of_known (h : ¬ d.Unknown) :
    wattHours? d.hours d.rating = some d.wattHours := by
  cases hrating : d.rating with
  | some w => simp only [wattHours?, PowerDraw.wattHours, hrating]
  | none =>
    have hidle : d.hours.abs < epsilon := Decidable.not_not.mp fun hsome => h ⟨hrating, hsome⟩
    simp only [wattHours?, PowerDraw.wattHours, hrating, if_pos hidle]

theorem weeklyWattHours?_of_unknown (h : active.Unknown ∨ standby.Unknown) :
    weeklyWattHours? active.hours standby.hours active.rating standby.rating = none := by
  rw [weeklyWattHours?]
  rcases h with h | h
  · rw [wattHours?_eq_none_iff.mpr h]
  · -- What is known of the other way is of no use then.
    rw [wattHours?_eq_none_iff.mpr h]
    cases wattHours? active.hours active.rating <;> rfl

theorem weeklyWattHours?_of_known (h : ¬ (active.Unknown ∨ standby.Unknown)) :
    weeklyWattHours? active.hours standby.hours active.rating standby.rating =
      some (active.wattHours + standby.wattHours) := by
  obtain ⟨hactive, hstandby⟩ := not_or.mp h
  rw [weeklyWattHours?, wattHours?_of_known hactive, wattHours?_of_known hstandby]

end Draws

section Formula
variable {u : EquipmentUse} {power : Lookup PowerRating} {grid : GridIntensity} {s : Settings}

theorem effectiveActiveW_eq (u : EquipmentUse) (power : Lookup PowerRating) (weekHours : Float) :
    u.effectiveActiveW power = (u.activeDraw power weekHours).rating :=
  (PowerDraw.rating_of _ u.activeW power _).symm

theorem effectiveStandbyW_eq (u : EquipmentUse) (power : Lookup PowerRating) (weekHours : Float) :
    u.effectiveStandbyW power = (u.standbyDraw power weekHours).rating :=
  (PowerDraw.rating_of _ u.standbyW power _).symm

theorem hoursPerWeek_eq (u : EquipmentUse) (power : Lookup PowerRating) (weekHours : Float) :
    u.usage.hoursPerWeek weekHours =
      ((u.activeDraw power weekHours).hours, (u.standbyDraw power weekHours).hours) := by
  cases husage : u.usage <;>
    simp [Usage.hoursPerWeek, activeDraw, standbyDraw, PowerDraw.of, husage]

/-- The snapshot tells the hours and the ratings of both. -/
theorem snapshot_draws (u : EquipmentUse) (power : Lookup PowerRating) (grid : GridIntensity)
    (s : Settings) :
    let t := u.snapshot power grid s
    let active := u.activeDraw power s.hoursPerWeek
    let standby := u.standbyDraw power s.hoursPerWeek
    t.activeHours = active.hours ∧ t.passiveHours = standby.hours ∧
      t.activeW = active.rating ∧ t.standbyW = standby.rating := by
  simp only [snapshot, hoursPerWeek_eq u power, effectiveActiveW_eq u power s.hoursPerWeek,
    effectiveStandbyW_eq u power s.hoursPerWeek, and_self]

/-- A draw that is unknown leaves the emission incomplete. -/
theorem calculate_of_unknown (h : (u.activeDraw power s.hoursPerWeek).Unknown ∨
    (u.standbyDraw power s.hoursPerWeek).Unknown) :
    let c := u.calculate power grid s
    c.kg = none ∧ c.annualKwh = none ∧ c.reason = some (missingRating power) := by
  intro c
  obtain ⟨hactive, hstandby, hactiveW, hstandbyW⟩ := snapshot_draws u power grid s
  simp only [c, calculate, hactive, hstandby, hactiveW, hstandbyW, weeklyWattHours?_of_unknown h]
  cases power <;> exact ⟨rfl, rfl, rfl⟩

/-- With both draws known, their energies are added. -/
theorem calculate_of_known (h : ¬ ((u.activeDraw power s.hoursPerWeek).Unknown ∨
    (u.standbyDraw power s.hoursPerWeek).Unknown)) :
    let c := u.calculate power grid s
    let kwh := ((u.activeDraw power s.hoursPerWeek).wattHours +
      (u.standbyDraw power s.hoursPerWeek).wattHours) * s.weeksPerYear / 1000.0
    c.kg = some (if u.status = .inService then Decimal.round2 (kwh * grid.kgPerKwh) else 0.0) ∧
      c.annualKwh = some (Decimal.round2 kwh) ∧ c.reason = none := by
  intro c kwh
  obtain ⟨hactive, hstandby, hactiveW, hstandbyW⟩ := snapshot_draws u power grid s
  simp only [c, calculate, hactive, hstandby, hactiveW, hstandbyW, weeklyWattHours?_of_known h]
  refine ⟨?_, rfl, rfl⟩
  simp only [Option.map_some, yearlyKg, yearlyKwh, EquipmentStatus.isInService, beq_iff_eq, kwh]

/-- The power factor is used when it gives one of the two ratings. -/
theorem fromFactor_iff (u : EquipmentUse) (power : Lookup PowerRating) (weekHours : Float) :
    ((u.activeW.isNone && (u.effectiveActiveW power).isSome) ||
      (u.standbyW.isNone && (u.effectiveStandbyW power).isSome)) = true ↔
    (u.activeDraw power weekHours).RatedByFactor ∨
      (u.standbyDraw power weekHours).RatedByFactor := by
  rw [effectiveActiveW_eq u power weekHours, effectiveStandbyW_eq u power weekHours,
    Bool.or_eq_true]
  exact or_congr (u.activeDraw power weekHours).ratedByFactor_iff
    (u.standbyDraw power weekHours).ratedByFactor_iff

theorem factorsUsed_of_rated {f : PowerRating} {weekHours : Float}
    (h : (u.activeDraw (.ok f) weekHours).RatedByFactor ∨
      (u.standbyDraw (.ok f) weekHours).RatedByFactor) :
    u.factorsUsed (.ok f) grid = f.factor :: grid.factor.toList := by
  simp only [factorsUsed, (fromFactor_iff u (.ok f) weekHours).mpr h, if_true]
  rfl

theorem factorsUsed_of_not_rated {weekHours : Float}
    (h : ¬ ((u.activeDraw power weekHours).RatedByFactor ∨
      (u.standbyDraw power weekHours).RatedByFactor)) :
    u.factorsUsed power grid = grid.factor.toList := by
  simp only [factorsUsed, if_neg (mt (fromFactor_iff u power weekHours).mp h), List.nil_append]

/-- Each of the two ways in which equipment draws power takes the rating of the record, or else that
of the factor. The outcome is open exactly if one of them has hours and no rating, and then it says
that the factor was not found, if it was not. Otherwise the energy is told whatever the status, and
what equipment in service emits is worked out from the energy before it is rounded. The factor of
the ratings goes in exactly if one of its ratings counts, and that of the grid comes after it. -/
theorem equipment_sums_its_draws (u : EquipmentUse) (power : Lookup PowerRating)
    (grid : GridIntensity) (s : Settings) :
    let c := u.calculate power grid s
    let active := u.activeDraw power s.hoursPerWeek
    let standby := u.standbyDraw power s.hoursPerWeek
    let kwh := (active.wattHours + standby.wattHours) * s.weeksPerYear / 1000.0
    (∃ t : EquipmentSnapshot, c.snapshot = .equipment t ∧
      t.activeHours = active.hours ∧ t.passiveHours = standby.hours ∧
      t.activeW = active.rating ∧ t.standbyW = standby.rating) ∧
    (c.kg = none ↔ active.Unknown ∨ standby.Unknown) ∧
    (c.kg = none → c.annualKwh = none ∧ c.reason = some (missingRating power)) ∧
    (∀ kg, c.kg = some kg → c.annualKwh = some (Decimal.round2 kwh) ∧ c.reason = none ∧
      kg = if u.status = .inService then Decimal.round2 (kwh * grid.kgPerKwh) else 0.0) ∧
    (∀ f, power = .ok f → active.RatedByFactor ∨ standby.RatedByFactor →
      c.factors = f.factor :: grid.factor.toList) ∧
    (¬ (active.RatedByFactor ∨ standby.RatedByFactor) → c.factors = grid.factor.toList) := by
  intro c active standby kwh
  refine ⟨⟨_, rfl, snapshot_draws u power grid s⟩, ?_, ?_, ?_, ?_, factorsUsed_of_not_rated⟩
  · constructor
    · intro hnone
      by_contra hknown
      obtain ⟨hkg, _⟩ := calculate_of_known hknown
      cases hkg.symm.trans hnone
    · exact fun hunknown => (calculate_of_unknown hunknown).1
  · intro hnone
    by_cases hunknown : active.Unknown ∨ standby.Unknown
    · exact (calculate_of_unknown hunknown).2
    · obtain ⟨hkg, _⟩ := calculate_of_known hunknown
      cases hkg.symm.trans hnone
  · intro kg hsome
    by_cases hunknown : active.Unknown ∨ standby.Unknown
    · cases (calculate_of_unknown hunknown).1.symm.trans hsome
    · obtain ⟨hkg, hkwh, hreason⟩ := calculate_of_known hunknown
      exact ⟨hkwh, hreason, Option.some.inj (hsome.symm.trans hkg)⟩
  · rintro f rfl hrated
    exact factorsUsed_of_rated hrated

end Formula

end EquipmentUse
end CarbonLedger
