import CarbonLedger.Emission.Evaluation
import CarbonLedger.Proofs.WrittenRecords

/-! How the calculations of an activity come about, formula by formula. What holds of all
evaluations is a case analysis over these. -/

namespace CarbonLedger

/-- Staff factors have a number for every kind of a headcount. -/
theorem StaffFactor.isSome_kgPerPosition? (f : StaffFactor) {kind : EmissionKind}
    (h : kind ∈ EmissionKind.ofHeadcount) : (f.kgPerPosition? kind).isSome = true := by
  cases kind <;> first | rfl | exact absurd h (by decide)

/-- A factor for staff has a number for each of the kinds of a headcount, so its emissions are
complete together. -/
theorem Headcount.isSome_kg {h : Headcount} {factor : Lookup StaffFactor} {c : Calculation}
    (hc : c ∈ h.calculate factor) : c.kg.isSome = factor.isOk := by
  obtain ⟨kind, hkind, rfl⟩ := List.mem_map.mp hc
  cases factor with
  | error u => rfl
  | ok f =>
    simp only [Lookup.payload?, Option.bind_some, Option.isSome_map]
    exact f.isSome_kgPerPosition? hkind

namespace Trip

structure FlightOver (trips : UInt32) (factor : Lookup FlightFactor) (greatCircleKm : Float)
    (s : TripSnapshot) (c : Calculation) : Prop where
  kind : c.kind = .flight
  factors : c.factors = factor.factors
  snapshot : c.snapshot = .flight s
  greatCircle : s.greatCircleKm = some greatCircleKm
  count : s.trips = trips
  impactScore : s.impactScore = factor.payload?.map (·.impactScore)
  heightMultiplier : s.heightMultiplier = factor.payload?.map (·.heightMultiplier)
  kg : c.kg = factor.payload?.map fun f =>
    flightKg (TransportMode.plane.distanceKm greatCircleKm) f.impactScore f.heightMultiplier trips
  reason : c.reason = factor.reason?

structure TrainOver (trips : UInt32) (factor : Lookup TrainFactor) (greatCircleKm : Float)
    (s : TripSnapshot) (c : Calculation) : Prop where
  kind : c.kind = .train
  factors : c.factors = factor.factors
  snapshot : c.snapshot = .train s
  greatCircle : s.greatCircleKm = some greatCircleKm
  count : s.trips = trips
  impactScore : s.impactScore = factor.payload?.map (·.impactScore)
  kg : c.kg = factor.payload?.map fun f =>
    trainKg (TransportMode.train.distanceKm greatCircleKm) f.impactScore trips
  reason : c.reason = factor.reason?

section Formulas
variable {origin destination : Location} {cabin : Option CabinClass} {trips : UInt32}
  {c : Calculation}

theorem flightOver_of_eq_ok {factor : Lookup FlightFactor}
    (h : calculateFlight origin destination cabin trips factor = .ok c) :
    ∃ km s, FlightOver trips factor km s c := by
  obtain ⟨km, _, hc⟩ := bind_eq_ok.mp h
  cases hc
  exact ⟨km, _, rfl, rfl, rfl, rfl, rfl, rfl, rfl, rfl, rfl⟩

theorem trainOver_of_eq_ok {country : String} {factor : Lookup TrainFactor}
    (h : calculateTrain origin destination cabin trips country factor = .ok c) :
    ∃ km s, TrainOver trips factor km s c := by
  obtain ⟨km, _, hc⟩ := bind_eq_ok.mp h
  cases hc
  exact ⟨km, _, rfl, rfl, rfl, rfl, rfl, rfl, rfl, rfl⟩

end Formulas

end Trip

namespace Basis

section Trips
variable {b : Basis} {t : Trip} {origin destination : Location} {o : Outcome}

theorem flightOver_of_flight (h : b.flight t origin destination = .ok o) :
    ∃ haul km s c, o.calculations = [c] ∧
      Trip.FlightOver t.trips (b.lookup (.flight haul)).1 km s c := by
  obtain ⟨km, _, h⟩ := bind_eq_ok.mp h
  obtain ⟨c, hc, h⟩ := bind_eq_ok.mp h
  obtain ⟨_, s, hover⟩ := Trip.flightOver_of_eq_ok (mapError_eq_ok.mp hc)
  cases h
  exact ⟨_, _, s, c, rfl, hover⟩

theorem trainOver_of_train (h : b.train t origin destination = .ok o) :
    ∃ country km s c, o.calculations = [c] ∧
      Trip.TrainOver t.trips (b.lookup (.train country)).1 km s c := by
  obtain ⟨c, hc, h⟩ := bind_eq_ok.mp h
  obtain ⟨_, s, hover⟩ := Trip.trainOver_of_eq_ok (mapError_eq_ok.mp hc)
  cases h
  exact ⟨_, _, s, c, rfl, hover⟩

/-- A trip between known places is worked out by its mode. -/
theorem travel_of_found (horigin : b.directory.find? t.origin = some origin)
    (hdestination : b.directory.find? t.destination = some destination) :
    ∀ mode, TransportMode.ofText t.mode = .ok mode → b.travel t =
      match mode with
      | .plane => b.flight t origin destination
      | .train => b.train t origin destination := by
  intro mode hmode
  rw [travel, hmode]
  cases mode <;> simp only [mapError_ok, bind, Except.bind, horigin, hdestination]

end Trips

inductive Works (b : Basis) : Activity → List Calculation → Prop
  | equipment (u : EquipmentUse) :
    b.Works (.equipment u) [u.calculate
      (b.lookup (.equipment u.submodule u.equipmentClass u.subClass)).1
      (b.grid (b.gridCountry u)).1 b.settings]
  | unknownLocation (t : Trip) (mode : TransportMode) (missing : Int64) :
    b.Works (.travel t) [t.unknownLocation mode missing]
  | flight (t : Trip) {haul : HaulCategory} {km : Float} {s : TripSnapshot} {c : Calculation}
      (h : Trip.FlightOver t.trips (b.lookup (.flight haul)).1 km s c) :
    b.Works (.travel t) [c]
  | train (t : Trip) {country : String} {km : Float} {s : TripSnapshot} {c : Calculation}
      (h : Trip.TrainOver t.trips (b.lookup (.train country)).1 km s c) :
    b.Works (.travel t) [c]
  | headcount (h : Headcount) :
    b.Works (.headcount h) (h.calculate (b.lookup (.headcount h.category)).1)
  | externalCloud (s : CloudSpend) :
    b.Works (.externalCloud s) [s.calculate (b.lookup (.externalCloud s.provider s.service)).1]
  | externalAi (u : ModelUse) :
    b.Works (.externalAi u) [u.calculate (b.lookup (.externalAi u.provider u.useCase)).1]

section Cases
variable {b : Basis}

theorem works_of_flight {t : Trip} {origin destination : Location} {o : Outcome}
    (h : b.flight t origin destination = .ok o) : b.Works (.travel t) o.calculations := by
  obtain ⟨haul, km, s, c, hc, hover⟩ := flightOver_of_flight h
  rw [hc]
  exact .flight t hover

theorem works_of_train {t : Trip} {origin destination : Location} {o : Outcome}
    (h : b.train t origin destination = .ok o) : b.Works (.travel t) o.calculations := by
  obtain ⟨country, km, s, c, hc, hover⟩ := trainOver_of_train h
  rw [hc]
  exact .train t hover

/-- The calculations of a trip are those of a flight or of a train. -/
theorem works_of_travel {t : Trip} {o : Outcome} (h : b.travel t = .ok o) :
    b.Works (.travel t) o.calculations := by
  obtain ⟨mode, _, h⟩ := bind_eq_ok.mp h
  -- An end that is in no directory is told before any distance is worked out.
  split at h
  · cases h
    exact .unknownLocation t mode t.origin
  · split at h
    · cases h
      exact .unknownLocation t mode t.destination
    · cases mode with
      | plane => exact works_of_flight h
      | train => exact works_of_train h

theorem works_of_outcome {a : Activity} {o : Outcome} (h : b.outcome a = .ok o) :
    b.Works a o.calculations := by
  cases a with
  | equipment u =>
    cases h
    exact .equipment u
  | travel t => exact works_of_travel h
  | headcount s =>
    cases h
    exact .headcount s
  | externalCloud s =>
    cases h
    exact .externalCloud s
  | externalAi u =>
    cases h
    exact .externalAi u

/-- The emissions of an evaluation are those of the calculations of its activity. -/
theorem works_of_evaluate {r : ActivityRecord} {computedAt : Instant} {e : Evaluation}
    (h : b.evaluate r computedAt = .ok e) :
    ∃ cs, b.Works r.activity cs ∧
      e.emissions = cs.map (·.toEmission r.subject computedAt) := by
  obtain ⟨o, ho, h⟩ := bind_eq_ok.mp h
  cases h
  exact ⟨o.calculations, works_of_outcome ho, rfl⟩

end Cases

namespace Works
variable {b : Basis} {a : Activity} {cs : List Calculation}

theorem ne_nil (h : b.Works a cs) : cs ≠ [] := by
  cases h <;> exact List.cons_ne_nil _ _

/-- The calculations of an activity come in the order of kinds. -/
theorem kinds_ascend (h : b.Works a cs) : cs.Pairwise fun c d => c.kind.place < d.kind.place := by
  cases h with
  | headcount h =>
    have hkinds : EmissionKind.ofHeadcount.Pairwise fun k l => k.place < l.place := by decide
    rw [Headcount.calculate, List.pairwise_map]
    exact hkinds
  | _ => exact List.pairwise_singleton _ _

/-- No evaluation is complete in part. -/
theorem complete_alike (h : b.Works a cs) :
    (∀ c ∈ cs, c.kg.isSome = true) ∨ ∀ c ∈ cs, c.kg.isSome = false := by
  -- One calculation is complete or it is not; only headcounts make several.
  have hone (c : Calculation) :
      (∀ d ∈ [c], d.kg.isSome = true) ∨ ∀ d ∈ [c], d.kg.isSome = false := by
    simp only [List.forall_mem_singleton]
    exact Bool.eq_false_or_eq_true c.kg.isSome
  cases h with
  | headcount h =>
    cases hfactor : (b.lookup (α := StaffFactor) (.headcount h.category)).1.isOk with
    | true =>
      left
      intro c hc
      rw [Headcount.isSome_kg hc, hfactor]
    | false =>
      right
      intro c hc
      rw [Headcount.isSome_kg hc, hfactor]
  | _ => exact hone _

/-- A calculation gives a reason when it has no result, and only then. -/
theorem reason_isSome_iff (h : b.Works a cs) : ∀ c ∈ cs, c.reason.isSome = true ↔ c.kg = none := by
  have hlookup {α : Type} (factor : Lookup α) (kg : α → Float) :
      factor.reason?.isSome = true ↔ factor.payload?.map kg = none := by
    cases factor <;> simp [Lookup.reason?, Lookup.payload?]
  cases h with
  | equipment u =>
    rw [List.forall_mem_singleton, EquipmentUse.calculate]
    cases EquipmentUse.weeklyWattHours? _ _ _ _ with
    | some weekly => simp
    | none => simp
  | unknownLocation t mode missing => simp [Trip.unknownLocation]
  | flight t h =>
    rw [List.forall_mem_singleton, h.reason, h.kg]
    exact hlookup _ _
  | train t h =>
    rw [List.forall_mem_singleton, h.reason, h.kg]
    exact hlookup _ _
  | headcount h =>
    intro c hc
    obtain ⟨kind, hkind, rfl⟩ := List.mem_map.mp hc
    cases (b.lookup (α := StaffFactor) (.headcount h.category)).1 with
    | error u => simp [Lookup.reason?, Lookup.payload?]
    | ok f =>
      have hpart := Option.isSome_iff_ne_none.mp (f.isSome_kgPerPosition? hkind)
      simp [Lookup.reason?, Lookup.payload?, hpart]
  | externalCloud s =>
    rw [List.forall_mem_singleton, CloudSpend.calculate, Option.map_map]
    exact hlookup _ _
  | externalAi u =>
    rw [List.forall_mem_singleton, ModelUse.calculate, Option.map_map]
    exact hlookup _ _

end Works

section Emissions
variable {b : Basis} {r : ActivityRecord} {computedAt : Instant} {e : Evaluation}

theorem emissions_ne_nil (h : b.evaluate r computedAt = .ok e) : e.emissions ≠ [] := by
  obtain ⟨cs, hw, he⟩ := works_of_evaluate h
  rw [he, ne_eq, List.map_eq_nil_iff]
  exact hw.ne_nil

theorem subject_of_mem_emissions (h : b.evaluate r computedAt = .ok e) {m : Emission}
    (hm : m ∈ e.emissions) : m.subject = r.subject := by
  obtain ⟨cs, _, he⟩ := works_of_evaluate h
  rw [he] at hm
  obtain ⟨c, _, rfl⟩ := List.mem_map.mp hm
  rfl

/-- An evaluation has at most one emission of each kind, in the order of reports. -/
theorem emissions_ascend (h : b.evaluate r computedAt = .ok e) :
    e.emissions.Pairwise fun m n => m.kind.place < n.kind.place := by
  obtain ⟨cs, hw, he⟩ := works_of_evaluate h
  rw [he, List.pairwise_map]
  exact hw.kinds_ascend

theorem nodup_kinds (h : b.evaluate r computedAt = .ok e) : (e.emissions.map (·.kind)).Nodup := by
  rw [List.Nodup, List.pairwise_map]
  refine (emissions_ascend h).imp ?_
  intro m n hlt heq
  rw [heq] at hlt
  exact Nat.lt_irrefl _ hlt

/-- The emissions of one evaluation are complete all together or not at all. -/
theorem emissions_complete_alike (h : b.evaluate r computedAt = .ok e) :
    (∀ m ∈ e.emissions, m.isComplete = true) ∨ ∀ m ∈ e.emissions, m.isComplete = false := by
  obtain ⟨cs, hw, he⟩ := works_of_evaluate h
  rw [he]
  simp only [List.forall_mem_map]
  exact hw.complete_alike

theorem reason_of_mem_emissions (h : b.evaluate r computedAt = .ok e) {m : Emission}
    (hm : m ∈ e.emissions) : m.reason.isSome = true ↔ m.kg = none := by
  obtain ⟨cs, hw, he⟩ := works_of_evaluate h
  rw [he] at hm
  obtain ⟨c, hc, rfl⟩ := List.mem_map.mp hm
  exact hw.reason_isSome_iff c hc

end Emissions

end Basis

end CarbonLedger
