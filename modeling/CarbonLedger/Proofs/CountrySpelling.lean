import CarbonLedger.Proofs.TrainCountries
import Mathlib.Data.List.Forall2

namespace CarbonLedger

namespace Country
variable {a b : Option String}

/-- Codes that differ in spelling alone: neither of them is there, or both are the same but for
blanks around them and the case of their letters. -/
def Respelled (a b : Option String) : Prop :=
  (a.bind Text.filled? = none ∧ b.bind Text.filled? = none) ∨
    ∃ s t, a.bind Text.filled? = some s ∧ b.bind Text.filled? = some t ∧
      Text.sameLetters s t = true

/-- Respelled codes name the same country. -/
theorem named?_eq_of_respelled (h : Respelled a b) : named? a = named? b := by
  rw [named?, named?]
  rcases h with ⟨ha, hb⟩ | ⟨s, t, ha, hb, hst⟩
  · rw [ha, hb]
  · rw [ha, hb, Option.map_some, Option.map_some, Text.sameLetters_iff_upper.mp hst]

/-- A train trip is charged to the countries that its ends name. -/
theorem ofTrainTrip_of_respelled {origin destination : Option String} (horigin : Respelled a origin)
    (hdestination : Respelled b destination) (domestic : String) :
    ofTrainTrip domestic a b = ofTrainTrip domestic origin destination := by
  rw [ofTrainTrip_eq, ofTrainTrip_eq, named?_eq_of_respelled horigin,
    named?_eq_of_respelled hdestination]

end Country

def EquipmentUse.Respelled (u v : EquipmentUse) : Prop :=
  ∃ code, Country.Respelled u.countryCode code ∧ v = { u with countryCode := code }

def Location.Respelled (l m : Location) : Prop :=
  ∃ code, Country.Respelled l.countryCode code ∧ m = { l with countryCode := code }

namespace Directory

def Respelled (d e : Directory) : Prop :=
  ∀ id, Option.Rel Location.Respelled (d.find? id) (e.find? id)

/-- An id finds a location in both directories or in neither. -/
theorem Respelled.find?_cases {d e : Directory} (h : d.Respelled e) (id : Int64) :
    (d.find? id = none ∧ e.find? id = none) ∨
      ∃ l m, d.find? id = some l ∧ e.find? id = some m ∧ l.Respelled m := by
  have hid := h id
  generalize d.find? id = l at hid ⊢
  generalize e.find? id = m at hid ⊢
  cases hid with
  | none => exact Or.inl ⟨rfl, rfl⟩
  | some hlm => exact Or.inr ⟨_, _, rfl, rfl, hlm⟩

theorem respelled_insert {d e : Directory} (h : d.Respelled e) {l m : Location}
    (hlm : l.Respelled m) : (d.insert l).Respelled (e.insert m) := by
  have hid : m.id = l.id := by
    obtain ⟨_, _, rfl⟩ := hlm
    rfl
  intro id
  rw [find?_insert, find?_insert, hid]
  split
  · exact .some hlm
  · exact h id

/-- Locations that differ in spelling alone make directories that do so. -/
theorem respelled_ofList {ls ms : List Location} (h : List.Forall₂ Location.Respelled ls ms) :
    (ofList ls).Respelled (ofList ms) := by
  have hfrom {d e : Directory} (hde : d.Respelled e) :
      (ls.foldl insert d).Respelled (ms.foldl insert e) := by
    induction h generalizing d e with
    | nil => exact hde
    | cons hlm _ ih => exact ih (respelled_insert hde hlm)
  exact hfrom fun _ => .none

end Directory

namespace Basis
variable {b : Basis}

/-- Equipment draws from the grid of the country it names, else from the domestic one. -/
theorem gridCountry_eq (u : EquipmentUse) :
    b.gridCountry u =
      (Country.named? u.countryCode).getD (Text.upper b.settings.domesticCountry) := by
  rw [gridCountry, Country.named?]
  cases u.countryCode.bind Text.filled? <;> rfl

/-- The grid is looked up and recorded under the country that is named, and nothing else of the
evaluation reads the code. -/
theorem equipment_of_respelled {u v : EquipmentUse} (h : u.Respelled v) :
    b.equipment v = b.equipment u := by
  obtain ⟨code, hcode, rfl⟩ := h
  have hgrid : b.gridCountry { u with countryCode := code } = b.gridCountry u := by
    rw [gridCountry_eq, gridCountry_eq, Country.named?_eq_of_respelled hcode]
  rw [equipment, equipment, hgrid]
  rfl

section Trips
variable {origin origin' destination destination' : Location}

theorem flight_of_respelled (horigin : origin.Respelled origin')
    (hdestination : destination.Respelled destination') (t : Trip) :
    b.flight t origin' destination' = b.flight t origin destination := by
  obtain ⟨_, _, rfl⟩ := horigin
  obtain ⟨_, _, rfl⟩ := hdestination
  rfl

/-- Trains between respelled places are told the same. -/
theorem train_of_respelled (horigin : origin.Respelled origin')
    (hdestination : destination.Respelled destination') (t : Trip) :
    b.train t origin' destination' = b.train t origin destination := by
  obtain ⟨o, ho, rfl⟩ := horigin
  obtain ⟨d, hd, rfl⟩ := hdestination
  have hcountry : Country.ofTrainTrip b.settings.domesticCountry o d =
      Country.ofTrainTrip b.settings.domesticCountry origin.countryCode destination.countryCode :=
    (Country.ofTrainTrip_of_respelled ho hd _).symm
  simp only [train, Country.ofTrainTrip_country?, hcountry]
  rfl

end Trips

/-- Trips under respelled directories are told the same. -/
theorem travel_of_respelled {c : Catalog} {settings : Settings} {asOf : Option Instant}
    {d e : Directory} (h : d.Respelled e) (t : Trip) :
    travel ⟨c, e, settings, asOf⟩ t = travel ⟨c, d, settings, asOf⟩ t := by
  rw [travel, travel]
  cases TransportMode.ofText t.mode with
  | error _ => rfl
  | ok mode =>
    simp only [mapError_ok, bind, Except.bind]
    rcases h.find?_cases t.origin with ⟨hd, he⟩ | ⟨origin, origin', hd, he, horigin⟩
    · rw [hd, he]
    · rcases h.find?_cases t.destination with ⟨hd', he'⟩ |
        ⟨destination, destination', hd', he', hdestination⟩
      · rw [hd, he, hd', he']
      · rw [hd, he, hd', he']
        cases mode with
        | plane => exact flight_of_respelled horigin hdestination t
        | train => exact train_of_respelled horigin hdestination t

end Basis

/-- Whatever the catalog, the settings and the time asked for, equipment is evaluated alike under
all spellings of its country code, and a trip comes to the same evaluation or error under all
spellings of the codes of its locations. -/
theorem spelling_of_countries_changes_nothing (c : Catalog) (settings : Settings)
    (asOf : Option Instant) (subject : Int64) (computedAt : Instant) :
    (∀ (d : Directory) (u v : EquipmentUse), u.Respelled v →
      Basis.evaluate ⟨c, d, settings, asOf⟩ ⟨subject, .equipment v⟩ computedAt =
        Basis.evaluate ⟨c, d, settings, asOf⟩ ⟨subject, .equipment u⟩ computedAt) ∧
    ∀ (d e : Directory) (t : Trip), d.Respelled e →
      Basis.evaluate ⟨c, e, settings, asOf⟩ ⟨subject, .travel t⟩ computedAt =
        Basis.evaluate ⟨c, d, settings, asOf⟩ ⟨subject, .travel t⟩ computedAt := by
  constructor
  · intro d u v h
    rw [Basis.evaluate, Basis.evaluate, Basis.outcome, Basis.outcome,
      Basis.equipment_of_respelled h]
  · intro d e t h
    rw [Basis.evaluate, Basis.evaluate, Basis.outcome, Basis.outcome, Basis.travel_of_respelled h]

def lampIn (countryCode : Option String) : EquipmentUse :=
  ⟨"office", "lamp", none, .inService, .hours 40.0 0.0, some 60.0, some 0.0, countryCode⟩

def stationsIn (countryCode : Option String) : List Location :=
  [⟨1, .train, "Start", 46.5, 7.5, none, countryCode⟩, ⟨2, .train, "End", 46.0, 7.0, none, none⟩]

/-- A lamp in France and a train from the rest of the world, with the codes respelled. -/
theorem lamp_and_trip_respelled :
    (lampIn (some "FR")).Respelled (lampIn (some " fr\t")) ∧
      Basis.evaluate ⟨.empty, .empty, .default, none⟩ ⟨7, .equipment (lampIn (some " fr\t"))⟩
          default =
        Basis.evaluate ⟨.empty, .empty, .default, none⟩ ⟨7, .equipment (lampIn (some "FR"))⟩
          default ∧
      (Directory.ofList (stationsIn (some "row"))).Respelled
        (Directory.ofList (stationsIn (some "RoW "))) ∧
      Basis.evaluate ⟨.empty, .ofList (stationsIn (some "RoW ")), .default, none⟩
          ⟨7, .travel ⟨1, 2, "train", none, 1⟩⟩ default =
        Basis.evaluate ⟨.empty, .ofList (stationsIn (some "row")), .default, none⟩
          ⟨7, .travel ⟨1, 2, "train", none, 1⟩⟩ default := by
  have hfr : Text.sameLetters "FR" "fr" = true := by
    have hupper : Text.upper "FR" = "FR" ∧ Text.upper "fr" = "FR" := by decide +kernel
    rw [Text.sameLetters_iff_upper, hupper.1, hupper.2]
  have hrow : Text.sameLetters "row" "RoW" = true := by
    have hupper : Text.upper "row" = "ROW" ∧ Text.upper "RoW" = "ROW" := by decide +kernel
    rw [Text.sameLetters_iff_upper, hupper.1, hupper.2]
  have hfrance : Country.Respelled (some "FR") (some " fr\t") :=
    Or.inr ⟨"FR", "fr", by decide +kernel, by decide +kernel, hfr⟩
  have hworld : Country.Respelled (some "row") (some "RoW ") :=
    Or.inr ⟨"row", "RoW", by decide +kernel, by decide +kernel, hrow⟩
  have hnone : Country.Respelled none none := Or.inl ⟨rfl, rfl⟩
  have hlamp : (lampIn (some "FR")).Respelled (lampIn (some " fr\t")) := ⟨_, hfrance, rfl⟩
  have hstations : (Directory.ofList (stationsIn (some "row"))).Respelled
      (Directory.ofList (stationsIn (some "RoW "))) :=
    Directory.respelled_ofList (.cons ⟨_, hworld, rfl⟩ (.cons ⟨_, hnone, rfl⟩ .nil))
  obtain ⟨hequipment, htrips⟩ :=
    spelling_of_countries_changes_nothing .empty .default none 7 default
  exact ⟨hlamp, hequipment .empty _ _ hlamp, hstations, htrips _ _ _ hstations⟩

end CarbonLedger
