import CarbonLedger.Proofs.Doubles
import CarbonLedger.Proofs.SubjectSteps

namespace CarbonLedger

namespace Coordinates

def Off (c : Coordinates) : Prop :=
  c.latitude.isNaN = true ∨ c.latitude < -90.0 ∨ 90.0 < c.latitude ∨
    c.longitude.isNaN = true ∨ c.longitude < -180.0 ∨ 180.0 < c.longitude

theorem onGlobe_eq_false_iff {c : Coordinates} : c.onGlobe = false ↔ c.Off := by
  have hninety : Float.isNaN 90.0 = false := by decide +kernel
  have hnegNinety : Float.isNaN (-90.0) = false := by decide +kernel
  have hhalf : Float.isNaN 180.0 = false := by decide +kernel
  have hnegHalf : Float.isNaN (-180.0) = false := by decide +kernel
  rw [onGlobe, Off]
  simp only [Bool.and_eq_false_iff, decide_eq_false_iff_not, not_le_iff, hninety, hnegNinety, hhalf,
    hnegHalf]
  grind

theorem onGlobe_iff {c : Coordinates} : c.onGlobe = true ↔ ¬ c.Off := by
  rw [← onGlobe_eq_false_iff, Bool.not_eq_false]

end Coordinates

/-- The first of two places that is off the globe. -/
theorem Location.find?_off_iff {origin destination off : Location} :
    [origin, destination].find? (fun p => !p.coordinates.onGlobe) = some off ↔
      (origin.coordinates.Off ∧ origin = off) ∨
        ¬ origin.coordinates.Off ∧ destination.coordinates.Off ∧ destination = off := by
  rw [← Coordinates.onGlobe_iff, ← Coordinates.onGlobe_eq_false_iff,
    ← Coordinates.onGlobe_eq_false_iff]
  cases ho : origin.coordinates.onGlobe <;> cases hd : destination.coordinates.onGlobe <;>
    simp [ho, hd]

namespace Trip

def modeNames : List String := ["plane", "flight", "train"]

def NamesMode (t : Trip) : Prop :=
  ∃ name ∈ modeNames, Text.sameLetters name (Text.trim t.mode) = true

theorem namesMode_iff {t : Trip} :
    t.NamesMode ↔ ∃ mode, TransportMode.ofText t.mode = .ok mode := by
  have hreadable : Cases.readable (α := TransportMode) =
      [("plane", .plane), ("train", .train), ("flight", .plane)] := rfl
  have hfound : t.NamesMode ↔
      (Cases.ofNameAnyCase? (Text.trim t.mode) : Option TransportMode).isSome = true := by
    rw [Cases.ofNameAnyCase?, hreadable, Option.isSome_map, List.find?_isSome, NamesMode, modeNames]
    simp only [List.mem_cons, List.not_mem_nil, or_false, exists_eq_or_imp, exists_eq_left]
    grind
  rw [hfound, TransportMode.ofText]
  cases Cases.ofNameAnyCase? (α := TransportMode) (Text.trim t.mode) <;> simp

theorem ofText_eq_error_iff {t : Trip} {e : UnknownMode} :
    TransportMode.ofText t.mode = .error e ↔ ¬ t.NamesMode ∧ ⟨t.mode⟩ = e := by
  rw [namesMode_iff, TransportMode.ofText]
  cases Cases.ofNameAnyCase? (α := TransportMode) (Text.trim t.mode) <;> simp

/-- What is wrong with a trip that cannot be evaluated. The origin is told if both places are off
the globe, and the mode if it is unknown as well. -/
inductive Malformed (directory : Directory) (t : Trip) : TripError → Prop
  | mode (h : ¬ t.NamesMode) : t.Malformed directory (.mode ⟨t.mode⟩)
  | origin {origin destination : Location} (hmode : t.NamesMode)
      (horigin : directory.find? t.origin = some origin)
      (hdestination : directory.find? t.destination = some destination)
      (hoff : origin.coordinates.Off) : t.Malformed directory (.place ⟨origin.coordinates⟩)
  | destination {origin destination : Location} (hmode : t.NamesMode)
      (horigin : directory.find? t.origin = some origin)
      (hdestination : directory.find? t.destination = some destination)
      (hon : ¬ origin.coordinates.Off) (hoff : destination.coordinates.Off) :
    t.Malformed directory (.place ⟨destination.coordinates⟩)

/-- A trip is malformed when its evaluation fails, and for the same reason. -/
theorem malformed_iff_tripFails {b : Basis} {t : Trip} {e : TripError} :
    t.Malformed b.directory e ↔ b.TripFails t e := by
  constructor
  · intro h
    cases h with
    | mode h => exact .mode (ofText_eq_error_iff.mpr ⟨h, rfl⟩)
    | origin hmode horigin hdestination hoff =>
      obtain ⟨mode, hmode⟩ := namesMode_iff.mp hmode
      exact .place hmode horigin hdestination (Location.find?_off_iff.mpr (.inl ⟨hoff, rfl⟩))
    | destination hmode horigin hdestination hon hoff =>
      obtain ⟨mode, hmode⟩ := namesMode_iff.mp hmode
      exact .place hmode horigin hdestination (Location.find?_off_iff.mpr (.inr ⟨hon, hoff, rfl⟩))
  · intro h
    cases h with
    | mode hu =>
      obtain ⟨hmode, rfl⟩ := ofText_eq_error_iff.mp hu
      exact .mode hmode
    | place hmode horigin hdestination hoff =>
      have hnamed := namesMode_iff.mpr ⟨_, hmode⟩
      rcases Location.find?_off_iff.mp hoff with ⟨horiginOff, rfl⟩ | ⟨hon, hdestinationOff, rfl⟩
      · exact .origin hnamed horigin hdestination horiginOff
      · exact .destination hnamed horigin hdestination hon hdestinationOff

end Trip

/-- Only a malformed trip is an error, and what is wrong with it is what the error tells. Whatever
the catalog, the settings and the time asked for, all other records are evaluated. -/
theorem only_malformed_trips_fail (catalog : Catalog) (directory : Directory) (settings : Settings)
    (asOf : Option Instant) (r : ActivityRecord) (computedAt : Instant) :
    (∀ e, Basis.evaluate ⟨catalog, directory, settings, asOf⟩ r computedAt = .error e ↔
      ∃ t, r.activity = .travel t ∧ t.Malformed directory e) ∧
    ((∃ v, Basis.evaluate ⟨catalog, directory, settings, asOf⟩ r computedAt = .ok v) ↔
      ¬ ∃ t e, r.activity = .travel t ∧ t.Malformed directory e) := by
  have herror (e : TripError) :
      Basis.evaluate ⟨catalog, directory, settings, asOf⟩ r computedAt = .error e ↔
        ∃ t, r.activity = .travel t ∧ t.Malformed directory e := by
    rw [Basis.evaluate_eq_error_iff]
    simp only [← Trip.malformed_iff_tripFails]
  refine ⟨herror, ?_⟩
  rw [exists_comm]
  simp only [← herror]
  cases Basis.evaluate ⟨catalog, directory, settings, asOf⟩ r computedAt <;> simp

def beyondThePole : Location := ⟨9, .plane, "Beyond", 90.5, 0.0, none, none⟩

/-- A flight from a place half a degree beyond the pole fails if the place is known. -/
theorem flight_beyond_the_pole_fails :
    let t : Trip := ⟨9, 9, " Flight ", none, 1⟩
    Basis.evaluate ⟨.empty, .ofList [beyondThePole], .default, none⟩ ⟨7, .travel t⟩ default =
        .error (.place ⟨⟨90.5, 0.0⟩⟩) ∧
      ∃ v, Basis.evaluate ⟨.empty, .empty, .default, none⟩ ⟨7, .travel t⟩ default = .ok v := by
  intro t
  have hmode : t.NamesMode := ⟨"flight", by decide, by cbv⟩
  have hoff : beyondThePole.coordinates.Off := .inr (.inr (.inl (by decide +kernel)))
  constructor
  · exact ((only_malformed_trips_fail _ _ _ _ _ _).1 _).mpr
      ⟨t, rfl, .origin hmode rfl rfl hoff⟩
  · refine (only_malformed_trips_fail _ _ _ _ _ _).2.mpr ?_
    rintro ⟨_, e, ⟨⟩, hmalformed⟩
    cases hmalformed with
    | mode h => exact h hmode
    | origin _ horigin => cases horigin
    | destination _ horigin => cases horigin

end CarbonLedger
