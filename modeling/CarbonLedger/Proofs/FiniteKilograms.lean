import CarbonLedger.Proofs.DoubleRange
import CarbonLedger.Proofs.FactorProvenance
import CarbonLedger.Proofs.KeptRows
import CarbonLedger.Proofs.SnapshotKilograms
import CarbonLedger.Proofs.StoredActivities

/-! When kilograms are a finite number. What goes into a formula is looked at before it is used; its
sums and products are not looked at after it. -/

namespace CarbonLedger

namespace Decimal

inductive Term
  | number (x : Float)
  | sum (a b : Term)
  | product (a b : Term)
  | hundredth (a : Term)
  | thousandth (a : Term)
  | whole (a : Term)

namespace Term

def value : Term → Float
  | number x => x
  | sum a b => a.value + b.value
  | product a b => a.value * b.value
  | hundredth a => a.value / 100.0
  | thousandth a => a.value / 1000.0
  | whole a => roundWhole a.value

/-- No sum and no product of the calculation is too large for a double. -/
def Fits : Term → Prop
  | number _ => True
  | sum a b => a.Fits ∧ b.Fits ∧ |exact a.value + exact b.value| < limit
  | product a b => a.Fits ∧ b.Fits ∧ |exact a.value * exact b.value| < limit
  | hundredth a => a.Fits
  | thousandth a => a.Fits
  | whole a => a.Fits

def round2 (a : Term) : Term := .hundredth (.whole (.product a (.number 100.0)))

end Term

end Decimal

open Decimal (Term)

namespace EquipmentSnapshot

def hoursTerm (hoursPerWeek : Float) (percent : Option Float) (hours : Float) : Term :=
  match percent with
  | some p => .product (.hundredth (.number p)) (.number hoursPerWeek)
  | none => .number hours

def partTerm? (hours : Term) (watts : Option Float) : Option Term :=
  match watts with
  | some w => some (.product hours (.number w))
  | none => if hours.value.abs < EquipmentUse.epsilon then some (.number 0.0) else none

def activeTerm (s : EquipmentSnapshot) : Term :=
  hoursTerm s.hoursPerWeek s.activePercent s.activeHours

def passiveTerm (s : EquipmentSnapshot) : Term :=
  hoursTerm s.hoursPerWeek s.passivePercent s.passiveHours

def term? (s : EquipmentSnapshot) : Option Term := do
  let active ← partTerm? s.activeTerm s.activeW
  let passive ← partTerm? s.passiveTerm s.standbyW
  let kwh := Term.thousandth (.product (.sum active passive) (.number s.weeksPerYear))
  return if s.status.isInService then .round2 (.product kwh (.number s.kgPerKwh)) else .number 0.0

end EquipmentSnapshot

namespace TripSnapshot

def flightTerm? (s : TripSnapshot) : Option Term := do
  let km := Term.sum (.number (← s.greatCircleKm)) (.number 95.0)
  let passenger := Term.product (.product km (.number (← s.impactScore)))
    (.number (← s.heightMultiplier))
  return .round2 (.product passenger (.number s.trips.toFloat))

def trainTerm? (s : TripSnapshot) : Option Term := do
  let km := Term.whole (.product (.number (← s.greatCircleKm)) (.number 1.2))
  return .round2 (.product (.product km (.number (← s.impactScore))) (.number s.trips.toFloat))

end TripSnapshot

namespace Snapshot

def term? : Snapshot → Option Term
  | .equipment s => s.term?
  | .flight s => s.flightTerm?
  | .train s => s.trainTerm?
  | .headcount s => s.kgPerPosition.map fun kg =>
    .round2 (.product (.number s.positions) (.number kg))
  | .externalCloud s => s.kgPerUnit.map fun kg => .product (.number s.amount) (.number kg)
  | .externalAi s => s.gramsPerRequest.map fun g =>
    let week := Term.product (.number s.requestsPerDay) (.number s.daysPerWeek)
    let year := Term.product week (.number s.weeksPerYear)
    .thousandth (.product (.product year (.number s.users.toFloat)) (.number g))

def greatCircle? : Snapshot → Option Float
  | .flight s => s.greatCircleKm
  | .train s => s.greatCircleKm
  | _ => none

/-- The great circle of a trip is a number, and nothing on the way to the kilograms is too large for
a double. -/
structure Fits (s : Snapshot) : Prop where
  greatCircle : ∀ km ∈ s.greatCircle?, km.isFinite = true
  steps : ∀ t ∈ s.term?, t.Fits

end Snapshot

namespace EquipmentSnapshot

def HoursDerived (s : EquipmentSnapshot) : Prop :=
  s.activeTerm.value = s.activeHours ∧ s.passiveTerm.value = s.passiveHours

theorem value_partTerm? (hours : Term) (watts : Option Float) :
    (partTerm? hours watts).map Term.value = part? hours.value watts := by
  cases watts with
  | some w => rfl
  | none =>
    rw [partTerm?, part?]
    split <;> rfl

/-- The kilograms of an equipment snapshot are the value of its term. -/
theorem kg_eq_term {s : EquipmentSnapshot} (h : s.HoursDerived) :
    s.kg? = s.term?.map Term.value := by
  rw [kg?, term?, ← h.1, ← h.2, ← value_partTerm?, ← value_partTerm?]
  cases partTerm? s.activeTerm s.activeW with
  | none => rfl
  | some active =>
    cases partTerm? s.passiveTerm s.standbyW with
    | none => rfl
    | some passive => cases s.status.isInService <;> rfl

end EquipmentSnapshot

namespace TripSnapshot

theorem flightKg_eq_term (s : TripSnapshot) : s.flightKg? = s.flightTerm?.map Term.value := by
  rw [flightKg?, flightTerm?]
  cases s.greatCircleKm <;> cases s.impactScore <;> cases s.heightMultiplier <;> rfl

theorem trainKg_eq_term (s : TripSnapshot) : s.trainKg? = s.trainTerm?.map Term.value := by
  rw [trainKg?, trainTerm?]
  cases s.greatCircleKm <;> cases s.impactScore <;> rfl

end TripSnapshot

namespace Snapshot

/-- The kilograms of a snapshot are the value of its term. -/
theorem kg_eq_term {s : Snapshot} (h : ∀ e, s = .equipment e → e.HoursDerived) :
    s.kg? = s.term?.map Term.value := by
  cases s with
  | equipment s => exact EquipmentSnapshot.kg_eq_term (h s rfl)
  | flight s => exact s.flightKg_eq_term
  | train s => exact s.trainKg_eq_term
  | headcount s =>
    rw [kg?, term?, Option.map_map]
    rfl
  | externalCloud s =>
    rw [kg?, term?, Option.map_map]
    rfl
  | externalAi s =>
    rw [kg?, term?, Option.map_map]
    rfl

end Snapshot

namespace EquipmentUse
variable {u : EquipmentUse} {power : Lookup PowerRating} {grid : GridIntensity} {s : Settings}

/-- The hours of an equipment snapshot follow from its usage. -/
theorem hoursDerived_of_calculate {e : EquipmentSnapshot}
    (he : (u.calculate power grid s).snapshot = .equipment e) : e.HoursDerived := by
  obtain rfl : u.snapshot power grid s = e := Snapshot.equipment.inj he
  rw [EquipmentSnapshot.HoursDerived, EquipmentSnapshot.activeTerm, EquipmentSnapshot.passiveTerm,
    snapshot]
  cases u.usage with
  | hours active passive => exact ⟨rfl, rfl⟩
  | percent active passive => exact ⟨rfl, rfl⟩

end EquipmentUse

namespace Basis
variable {b : Basis}

section Equipment
variable {u : EquipmentUse} {q : Query}

end Equipment

section Trips
variable {trips : UInt32} {km : Float} {s : TripSnapshot} {c : Calculation} {q : Query} {t : Term}

end Trips

namespace Works
variable {a : Activity} {cs : List Calculation}

theorem kg_eq_term (h : b.Works a cs) : ∀ c ∈ cs, c.kg = c.snapshot.term?.map Term.value := by
  intro c hc
  rw [h.kg_eq c hc]
  apply Snapshot.kg_eq_term
  intro s hs
  cases h with
  | equipment u =>
    rw [List.mem_singleton.mp hc] at hs
    exact EquipmentUse.hoursDerived_of_calculate hs
  | unknownLocation t mode missing =>
    rw [List.mem_singleton.mp hc] at hs
    cases mode <;> cases hs
  | flight t h =>
    rw [List.mem_singleton.mp hc, h.snapshot] at hs
    cases hs
  | train t h =>
    rw [List.mem_singleton.mp hc, h.snapshot] at hs
    cases hs
  | headcount h =>
    obtain ⟨kind, _, rfl⟩ := List.mem_map.mp hc
    cases hs
  | externalCloud s =>
    rw [List.mem_singleton.mp hc] at hs
    cases hs
  | externalAi u =>
    rw [List.mem_singleton.mp hc] at hs
    cases hs

end Works

end Basis

namespace Ledger

end Ledger

end CarbonLedger
