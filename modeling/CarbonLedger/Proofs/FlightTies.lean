import CarbonLedger.Proofs.CatalogRuns
import CarbonLedger.Proofs.EvaluationCases
import CarbonLedger.Proofs.LabelQueries

namespace CarbonLedger

def Factor.isForHaul (f : Factor) (haul : HaulCategory) (asOf : Option Instant) : Bool :=
  f.kind == .flight && f.inWindow asOf &&
    f.classification.get? "haul_category" == some (.text (Cases.name haul))

namespace Catalog

def flightsOf (c : Catalog) (haul : HaulCategory) (asOf : Option Instant) : List Factor :=
  c.factors.filter fun f => f.isForHaul haul asOf

/-- The factors for a haul that no other one has fewer labels than. -/
def plainestFlights (c : Catalog) (haul : HaulCategory) (asOf : Option Instant) : List Factor :=
  (c.flightsOf haul asOf).filter fun f =>
    (c.flightsOf haul asOf).all fun g => f.classification.size ≤ g.classification.size

end Catalog

namespace Query

def flightAt (haul : HaulCategory) (asOf : Option Instant) : Query :=
  { flight haul with asOf := asOf }

theorem flightAt_eq_ofLabel (haul : HaulCategory) (asOf : Option Instant) :
    flightAt haul asOf = ofLabel .flight "haul_category" (Cases.name haul) asOf .refuse := rfl

end Query

namespace Catalog

theorem plainestFlights_eq_nil_iff {c : Catalog} {haul : HaulCategory} {asOf : Option Instant} :
    c.plainestFlights haul asOf = [] ↔ c.flightsOf haul asOf = [] := plainest_eq_nil_iff

/-- Flights resolve to the plainest factor of their haul, if there is just one. -/
theorem resolve_flightAt (c : Catalog) (haul : HaulCategory) (asOf : Option Instant) :
    c.resolve (Query.flightAt haul asOf) =
      match c.plainestFlights haul asOf with
      | [f] => some ⟨f, 1, false, []⟩
      | _ => none := by
  have hplainest : c.plainestFlights haul asOf =
      c.plainest .flight "haul_category" (Cases.name haul) asOf := rfl
  rw [Query.flightAt_eq_ofLabel, resolve_ofLabel_of_ne (by decide), resolve_ofLabel, hplainest]
  match c.plainest .flight "haul_category" (Cases.name haul) asOf with
  | [] => rfl
  | [f] => rfl
  | f :: g :: r => rfl

end Catalog

namespace Basis

theorem resolve_flight (b : Basis) (haul : HaulCategory) :
    b.resolve (.flight haul) = b.catalog.resolve (Query.flightAt haul b.asOf) := by
  have hadjust : b.adjust (.flight haul) = Query.flightAt haul b.asOf := by
    have hasOf : b.asOf.or none = b.asOf := Option.or_none
    have hties : (if b.settings.ties = .refuse then .refuse else TiePolicy.refuse) = .refuse :=
      ite_self _
    simp only [adjust, Query.flight, Query.flightAt, Query.all, Query.require, Query.add, hasOf,
      hties]
  rw [resolve, hadjust]

/-- A flight whose factor is not found is evaluated all the same, and is incomplete. -/
theorem flight_of_resolve_eq_none {b : Basis} {t : Trip} {origin destination : Location}
    {km : Float} (hkm : TransportMode.plane.distance origin destination = .ok km)
    (hnone : b.resolve (.flight (.ofKm km)) = none) :
    ∃ calculation, b.flight t origin destination = .ok ⟨[calculation], []⟩ ∧
      calculation.kind = .flight ∧ calculation.kg = none := by
  have hlookup : b.lookup (α := FlightFactor) (.flight (.ofKm km)) =
      (.error ⟨.flight, (Query.flight (.ofKm km)).classification, none⟩, none) := by
    rw [lookup, hnone]
    rfl
  -- A distance is there, so the great circle is.
  cases hcircle : origin.greatCircleKm destination with
  | error e =>
    rw [TransportMode.distance, hcircle] at hkm
    cases hkm
  | ok circleKm =>
    rw [flight, hkm]
    simp only [Except.mapError, bind, Except.bind, hlookup, Trip.calculateFlight, hcircle, pure,
      Except.pure]
    exact ⟨_, rfl, rfl, rfl⟩

/-- A plane trip between known places is evaluated as a flight. -/
theorem evaluate_flight {b : Basis} {t : Trip} {origin destination : Location} {o : Outcome}
    (hmode : TransportMode.ofText t.mode = .ok .plane)
    (horigin : b.directory.find? t.origin = some origin)
    (hdestination : b.directory.find? t.destination = some destination)
    (hflight : b.flight t origin destination = .ok o) (subject : Int64) (computedAt : Instant) :
    b.evaluate ⟨subject, .travel t⟩ computedAt =
      .ok ⟨o.calculations.map (·.toEmission subject computedAt), o.ambiguities⟩ := by
  have htravel : b.outcome (.travel t) = .ok o :=
    (travel_of_found horigin hdestination .plane hmode).trans hflight
  rw [evaluate, htravel]
  rfl

end Basis

/-- The query for flights of one haul finds the factor with the fewest labels, and nothing when
several have as few or there is none at all. A flight of the haul is then incomplete. -/
theorem flight_needs_one_plainest_factor (c : Catalog) (haul : HaulCategory)
    (asOf : Option Instant) :
    (c.plainestFlights haul asOf = [] ↔ c.flightsOf haul asOf = []) ∧
    (c.resolve { Query.flight haul with asOf := asOf } =
      match c.plainestFlights haul asOf with
      | [f] => some ⟨f, 1, false, []⟩
      | _ => none) ∧
    ∀ (directory : Directory) (settings : Settings) (t : Trip) (origin destination : Location)
      (km : Float) (subject : Int64) (computedAt : Instant),
      TransportMode.ofText t.mode = .ok .plane → directory.find? t.origin = some origin →
      directory.find? t.destination = some destination →
      TransportMode.plane.distance origin destination = .ok km → HaulCategory.ofKm km = haul →
      (∀ f, c.plainestFlights haul asOf ≠ [f]) →
      ∃ m, Basis.evaluate ⟨c, directory, settings, asOf⟩ ⟨subject, .travel t⟩ computedAt =
          .ok ⟨[m], []⟩ ∧ m.kind = .flight ∧ m.isComplete = false := by
  refine ⟨Catalog.plainestFlights_eq_nil_iff, c.resolve_flightAt haul asOf, ?_⟩
  intro directory settings t origin destination km subject computedAt hmode horigin hdestination
    hkm hhaul hmany
  have hnone : Basis.resolve ⟨c, directory, settings, asOf⟩ (.flight (.ofKm km)) = none := by
    rw [Basis.resolve_flight, hhaul, Catalog.resolve_flightAt]
    split
    · next f hone => exact absurd hone (hmany f)
    · rfl
  obtain ⟨calculation, hflight, hkind, hkg⟩ := Basis.flight_of_resolve_eq_none (t := t) hkm hnone
  refine ⟨calculation.toEmission subject computedAt, ?_, hkind, ?_⟩
  · exact Basis.evaluate_flight hmode horigin hdestination hflight subject computedAt
  · rw [Emission.isComplete, Calculation.toEmission, hkg]
    rfl

def flightFactor (id : Int64) (haul : HaulCategory) (labels : List (String × Label)) : Factor :=
  ⟨id, .flight, .ofList (("haul_category", .text (Cases.name haul)) :: labels), .empty, default,
    none⟩

def zurich : Location := ⟨1, .plane, "Zurich", 47.45, 8.56, some "ZRH", some "CH"⟩

def oslo : Location := ⟨2, .plane, "Oslo", 60.19, 11.1, some "OSL", some "NO"⟩

/-- Two factors with one label beside the haul are tied for a flight to Oslo. -/
theorem flight_to_oslo_is_incomplete :
    let t : Trip := ⟨1, 2, "plane", none, 3⟩
    let km := TransportMode.plane.distanceKm (zurich.coordinates.arc oslo.coordinates)
    let c : Catalog := ⟨[flightFactor 1 (.ofKm km) [("aircraft", .text "jet")],
      flightFactor 2 (.ofKm km) [("aircraft", .text "propeller")]]⟩
    TransportMode.plane.distance zurich oslo = .ok km ∧
      (c.plainestFlights (.ofKm km) none).length = 2 ∧
      ∃ m, Basis.evaluate ⟨c, .ofList [zurich, oslo], .default, none⟩ ⟨7, .travel t⟩ default =
          .ok ⟨[m], []⟩ ∧ m.kind = .flight ∧ m.isComplete = false := by
  intro t km c
  have hkm : TransportMode.plane.distance zurich oslo = .ok km := by
    have hz : zurich.coordinates.checked = .ok zurich.coordinates := if_pos (by decide)
    have ho : oslo.coordinates.checked = .ok oslo.coordinates := if_pos (by decide)
    rw [TransportMode.distance, Location.greatCircleKm, Coordinates.greatCircleKm, hz, ho]
    rfl
  have htwo (haul : HaulCategory) :
      ((⟨[flightFactor 1 haul [("aircraft", .text "jet")],
        flightFactor 2 haul [("aircraft", .text "propeller")]]⟩ : Catalog).plainestFlights haul
          none).length = 2 := by
    cases haul <;> rfl
  have hmode : TransportMode.ofText t.mode = .ok .plane := by cbv
  refine ⟨hkm, htwo _, ?_⟩
  apply (flight_needs_one_plainest_factor c (.ofKm km) none).2.2 _ _ t zurich oslo km 7 default
    hmode rfl rfl hkm rfl
  intro f hone
  have hlength := htwo (.ofKm km)
  rw [hone] at hlength
  cases hlength

/-- Two factors for short hauls are in the catalog, and the one with fewer labels is picked. -/
theorem plainer_short_flight_is_picked :
    let plain := flightFactor 1 .short []
    let propeller := flightFactor 2 .short [("aircraft", .text "propeller")]
    let c : Catalog := ⟨[plain, propeller]⟩
    c.Reached ∧ c.flightsOf .short none = [plain, propeller] ∧
      c.resolve { Query.flight .short with asOf := none } = some ⟨plain, 1, false, []⟩ := by
  intro plain propeller c
  have hc : c.Reached := (Catalog.Reached.empty.call (.enter plain) trivial).call (.enter propeller)
    trivial
  exact ⟨hc, by rfl, by rfl⟩

end CarbonLedger
