import CarbonLedger.Factor.Seed
import CarbonLedger.Proofs.FlightTies
import CarbonLedger.Proofs.GridIntensity
import CarbonLedger.Proofs.MalformedTrips
import CarbonLedger.Proofs.WholeEvaluations
import CarbonLedger.Travel.Reference

namespace CarbonLedger

namespace Query

/-- Candidates with different numbers of labels never tie. -/
theorem length_best_le_one {q : Query} (hk : q.keys.Nodup) {candidates : List Factor}
    (h : candidates.Pairwise fun f g => f.classification.size ≠ g.classification.size) :
    (q.best candidates).length ≤ 1 := by
  have hdistinct := h.sublist (List.filter_sublist (p := fun f => q.IsBest candidates f))
  match hbest : q.best candidates with
  | [] => exact Nat.zero_le 1
  | [f] => exact Nat.le_refl 1
  | f :: g :: r =>
    have hf : f ∈ q.best candidates := hbest ▸ List.mem_cons_self
    have hg : g ∈ q.best candidates := hbest ▸ List.mem_cons_of_mem _ List.mem_cons_self
    obtain ⟨hmatched, hunmatched⟩ := alike_of_mem_best hf hg
    have hfsize := matched_add_unmatched hk f
    have hgsize := matched_add_unmatched hk g
    have hne : f.classification.size ≠ g.classification.size := by
      have hpair : (f :: g :: r).Pairwise fun f g =>
          f.classification.size ≠ g.classification.size := hbest ▸ hdistinct
      exact List.rel_of_pairwise_cons hpair List.mem_cons_self
    omega

/-- A factor without labels contradicts no refining condition. -/
theorem eligible_of_no_labels {q : Query} {f : Factor} (hkind : f.kind = q.kind)
    (hwindow : f.inWindow q.asOf = true) (hlabels : f.classification.entries = [])
    (hrefining : ∀ d ∈ q.conditions, d.role = .refining) : q.Eligible f := by
  have hget (key : String) : f.classification.get? key = none := by
    rw [KeyMap.get?, hlabels]
    rfl
  obtain ⟨hcurrent, hholds⟩ := inWindow_iff.mp hwindow
  refine ⟨hkind, hcurrent, hholds, ?_, ?_⟩
  · intro d hd hrequired
    rw [hrefining d hd] at hrequired
    cases hrequired
  · intro d _ v hv
    rw [hget] at hv
    cases hv

/-- A headcount asks for no label that has to be there. -/
theorem headcount_eq (category : Option String) :
    ∃ conditions, headcount category = ⟨.headcount, conditions, none, .takeFirst⟩ ∧
      ∀ d ∈ conditions, d.role = .refining := by
  rw [headcount, refineText]
  cases category.bind Text.filled? with
  | none => exact ⟨[], rfl, List.forall_mem_nil _⟩
  | some s =>
    exact ⟨[⟨"category", .text s, .refining⟩], rfl, List.forall_mem_singleton.mpr rfl⟩

end Query

namespace Catalog

def seeded : Catalog := ⟨Factor.seeds⟩

/-- The seeds can be loaded as they are. -/
theorem ofList_seeds : ofList Factor.seeds = .ok seeded := by rfl

theorem seeded_inWindow {asOf : Option Instant}
    (hasOf : ∀ t, asOf = some t → Factor.seedStart ≤ t) :
    ∀ f ∈ seeded.factors, f.inWindow asOf = true := by
  have hall : ∀ f ∈ Factor.seeds, f.validFrom = Factor.seedStart ∧ f.validTo = none := by decide
  intro f hf
  obtain ⟨hfrom, hto⟩ := hall f hf
  cases asOf with
  | none => simp [Factor.inWindow, Factor.isCurrent, hto]
  | some t => simp [Factor.inWindow, Factor.isValidAt, hfrom, hto, hasOf t rfl]

theorem seeded_lists_haul (haul : HaulCategory) :
    seeded.Lists .flight "haul_category" (Cases.name haul) where
  entry := by
    cases haul with
    | veryShort => exact ⟨_, .head _, rfl⟩
    | short => exact ⟨_, .tail _ (.head _), rfl⟩
    | medium => exact ⟨_, .tail _ (.tail _ (.head _)), rfl⟩
    | long => exact ⟨_, .tail _ (.tail _ (.tail _ (.head _))), rfl⟩
  distinct := by decide

theorem seeded_lists_world_train : seeded.Lists .train "country_code" Country.restOfWorld where
  entry := ⟨_, List.mem_of_getElem? (i := 5) rfl, rfl⟩
  distinct := by decide

theorem seeded_lists_world_grid :
    seeded.Lists .electricityMix "country_code" Country.restOfWorld where
  entry := ⟨_, List.mem_of_getElem? (i := 1) rfl, rfl⟩
  distinct := by decide

section Payloads

theorem flight_seeds_decode : ∀ f ∈ seeded.ofKind .flight,
    (Payload.ofFactor f : Except PayloadError FlightFactor).isOk = true := by decide +kernel

theorem train_seeds_decode : ∀ f ∈ seeded.ofKind .train,
    (Payload.ofFactor f : Except PayloadError TrainFactor).isOk = true := by decide +kernel

theorem grid_seeds_decode : ∀ f ∈ seeded.ofKind .electricityMix,
    (Payload.ofFactor f : Except PayloadError GridFactor).isOk = true := by decide +kernel

theorem staff_seeds_decode : ∀ f ∈ seeded.ofKind .headcount,
    (Payload.ofFactor f : Except PayloadError StaffFactor).isOk = true := by decide +kernel

end Payloads

end Catalog

theorem Lookup.isSome_payload? {α : Type} (x : Lookup α) : x.payload?.isSome = x.isOk := by
  cases x <;> rfl

def Trip.Possible (t : Trip) (directory : Directory) : Prop :=
  ∃ origin destination, t.NamesMode ∧ directory.find? t.origin = some origin ∧
    directory.find? t.destination = some destination ∧
    ¬ origin.coordinates.Off ∧ ¬ destination.coordinates.Off

namespace Basis

/-- A lookup has a payload when a factor is found and all factors of its kind can be decoded. -/
theorem isOk_lookup_of_isSome {b : Basis} {α : Type} [Payload α] {q : Query}
    (h : (b.resolve q).isSome = true) (hdecode : ∀ f ∈ b.catalog.ofKind q.kind,
      (Payload.ofFactor f : Except PayloadError α).isOk = true) :
    (b.lookup (α := α) q).1.isOk = true := by
  obtain ⟨r, hr⟩ := Option.isSome_iff_exists.mp h
  have hok := hdecode r.factor (Catalog.factor_mem_ofKind (q := b.adjust q) hr)
  refine isOk_lookup_iff.mpr ⟨r, hr, ?_⟩
  cases hp : (Payload.ofFactor r.factor : Except PayloadError α) with
  | ok p => exact ⟨p, rfl⟩
  | error e =>
    rw [hp] at hok
    cases hok

/-- A record is evaluated, and all of its emissions have kilograms. There is at least one. -/
def Completes (b : Basis) (r : ActivityRecord) (computedAt : Instant) : Prop :=
  ∃ e, b.evaluate r computedAt = .ok e ∧ e.emissions ≠ [] ∧ ∀ m ∈ e.emissions, m.isComplete = true

theorem completes_of_outcome {b : Basis} {r : ActivityRecord} {computedAt : Instant} {o : Outcome}
    (h : b.outcome r.activity = .ok o) (hkg : ∀ c ∈ o.calculations, c.kg.isSome = true) :
    b.Completes r computedAt := by
  have he : b.evaluate r computedAt =
      .ok ⟨o.calculations.map (·.toEmission r.subject computedAt), o.ambiguities⟩ := by
    rw [evaluate, h]
    rfl
  exact ⟨_, he, emissions_ne_nil he, List.forall_mem_map.mpr hkg⟩

section Seeded
variable {b : Basis} (hb : b.catalog = .seeded)
  (hasOf : ∀ t, b.asOf = some t → Factor.seedStart ≤ t)
include hb hasOf

theorem seeded_finds_flight (haul : HaulCategory) : (b.resolve (.flight haul)).isSome = true := by
  rw [resolve_flight, Query.flightAt_eq_ofLabel, Catalog.resolve_ofLabel_of_ne (by decide), hb]
  exact (Catalog.seeded_lists_haul haul).isSome_resolve (Catalog.seeded_inWindow hasOf)

/-- With a factor for the rest of the world, every country is answered. -/
theorem seeded_finds_by_country {kind : EmissionKind}
    (hworld : Catalog.seeded.Lists kind "country_code" Country.restOfWorld) (code : String) :
    (b.resolve ((Query.all kind).require "country_code" (.text code))).isSome = true := by
  rw [resolve_require, hb]
  exact Catalog.isSome_resolve_country (hworld.isSome_resolve (Catalog.seeded_inWindow hasOf))

theorem seeded_finds_headcount (category : Option String) :
    (b.resolve (.headcount category)).isSome = true := by
  have hk : (b.adjust (.headcount category)).keys.Nodup :=
    (Query.Built.headcount category).nodup_keys
  obtain ⟨conditions, heq, hrefining⟩ := Query.headcount_eq category
  rw [heq] at hk
  -- The factor for all staff has no labels, so nothing contradicts it.
  let staff := Factor.positions.head (by decide)
  have hstaff : staff ∈ b.catalog.ofKind .headcount := hb ▸ .head _
  have hwindow : staff.inWindow (b.asOf.or none) = true := by
    rw [Option.or_none]
    exact Catalog.seeded_inWindow hasOf _ (Catalog.mem_ofKind.mp (hb ▸ hstaff)).1
  have heligible : (b.adjust ⟨.headcount, conditions, none, .takeFirst⟩).Eligible staff :=
    Query.eligible_of_no_labels rfl hwindow rfl hrefining
  have hsizes : (b.catalog.ofKind .headcount).Pairwise fun f g =>
      f.classification.size ≠ g.classification.size := hb ▸ by decide
  have hone := Query.length_best_le_one hk hsizes
  have hfound := Query.isSome_resolve hk ⟨staff, hstaff, heligible⟩ fun htie => by
    have hmany := htie.2
    omega
  rw [resolve, heq, Catalog.resolve]
  exact (congrArg Option.isSome (Query.resolveAnywhere_of_isSome hfound)).trans hfound

/-- Every headcount is completed by the seeds. -/
theorem seeded_headcount_completes (subject : Int64) (h : Headcount) (computedAt : Instant) :
    b.Completes ⟨subject, .headcount h⟩ computedAt := by
  obtain ⟨_, hquery, _⟩ := Query.headcount_eq h.category
  have hfactor := isOk_lookup_of_isSome (α := StaffFactor)
    (seeded_finds_headcount hb hasOf h.category)
    (by rw [hb, hquery]; exact Catalog.staff_seeds_decode)
  refine completes_of_outcome (r := ⟨subject, .headcount h⟩) rfl ?_
  intro c hc
  exact (Headcount.isSome_kg hc).trans hfactor

theorem seeded_flight_kg {t : Trip} {origin destination : Location} {o : Outcome}
    (h : b.flight t origin destination = .ok o) : ∀ c ∈ o.calculations, c.kg.isSome = true := by
  obtain ⟨haul, _, _, c, hc, hover⟩ := flightOver_of_flight h
  have hfactor := isOk_lookup_of_isSome (α := FlightFactor) (seeded_finds_flight hb hasOf haul)
    (by rw [hb]; exact Catalog.flight_seeds_decode)
  rw [hc, List.forall_mem_singleton, hover.kg, Option.isSome_map, Lookup.isSome_payload?]
  exact hfactor

theorem seeded_train_kg {t : Trip} {origin destination : Location} {o : Outcome}
    (h : b.train t origin destination = .ok o) : ∀ c ∈ o.calculations, c.kg.isSome = true := by
  obtain ⟨country, _, _, c, hc, hover⟩ := trainOver_of_train h
  have hfactor := isOk_lookup_of_isSome (α := TrainFactor) (q := .train country)
    (seeded_finds_by_country hb hasOf Catalog.seeded_lists_world_train _)
    (by rw [hb]; exact Catalog.train_seeds_decode)
  rw [hc, List.forall_mem_singleton, hover.kg, Option.isSome_map, Lookup.isSome_payload?]
  exact hfactor

/-- Every possible trip is completed by the seeds. -/
theorem seeded_trip_completes (subject : Int64) {t : Trip} (h : t.Possible b.directory)
    (computedAt : Instant) : b.Completes ⟨subject, .travel t⟩ computedAt := by
  obtain ⟨origin, destination, hnamed, horigin, hdestination, horiginOn, hdestinationOn⟩ := h
  obtain ⟨mode, hmode⟩ := Trip.namesMode_iff.mp hnamed
  have hfound := travel_of_found horigin hdestination mode hmode
  cases htravel : b.travel t with
  | error e =>
    -- The mode is named and both places are on the globe, so nothing can be wrong with the trip.
    cases travel_eq_error_iff.mp htravel with
    | mode hu => exact absurd hnamed (Trip.ofText_eq_error_iff.mp hu).1
    | place _ ho hd hoff =>
      cases horigin.symm.trans ho
      cases hdestination.symm.trans hd
      rcases Location.find?_off_iff.mp hoff with ⟨horiginOff, _⟩ | ⟨_, hdestinationOff, _⟩
      · exact absurd horiginOff horiginOn
      · exact absurd hdestinationOff hdestinationOn
  | ok o =>
    refine completes_of_outcome (r := ⟨subject, .travel t⟩) htravel ?_
    rw [hfound] at htravel
    cases mode with
    | plane => exact seeded_flight_kg hb hasOf htravel
    | train => exact seeded_train_kg hb hasOf htravel

theorem seeded_grid (code : String) : ∃ f ∈ Factor.grids, ∃ x, f.kgPerKwh? = some x ∧
    (b.grid code).1 = ⟨code, x, some f.id⟩ := by
  have hfactor := isOk_lookup_of_isSome (α := GridFactor) (q := .electricityMix code)
    (seeded_finds_by_country hb hasOf Catalog.seeded_lists_world_grid _)
    (by rw [hb]; exact Catalog.grid_seeds_decode)
  cases hlookup : (b.lookup (α := GridFactor) (.electricityMix code)).1 with
  | error u =>
    rw [hlookup] at hfactor
    cases hfactor
  | ok p =>
    obtain ⟨f, hf, hid, hkind, hoffers⟩ := factor_of_lookup hlookup
    have hgrid : f ∈ Factor.grids := by
      have hof : f ∈ Catalog.seeded.ofKind .electricityMix :=
        Catalog.mem_ofKind.mpr ⟨hb ▸ hf, hkind⟩
      exact hof
    refine ⟨f, hgrid, p.kgPerKwh, (hoffers _ (List.mem_singleton_self _)).2, ?_⟩
    rw [grid_of_lookup hlookup, hid]
    rfl

end Seeded

end Basis

/-- The factors of the library are enough for headcounts, trips and grids. Whatever the locations
and the settings, and at any time from their start on, every headcount and every trip that can be
made is evaluated with kilograms, and every piece of equipment has the intensity of its grid from a
factor. -/
theorem seeds_cover_staff_trips_and_grids (directory : Directory) (settings : Settings)
    (asOf : Option Instant) (hasOf : ∀ t, asOf = some t → Factor.seedStart ≤ t) :
    ∃ c, Catalog.ofList Factor.seeds = .ok c ∧
      (∀ subject h computedAt,
        Basis.Completes ⟨c, directory, settings, asOf⟩ ⟨subject, .headcount h⟩ computedAt) ∧
      (∀ subject t computedAt, t.Possible directory →
        Basis.Completes ⟨c, directory, settings, asOf⟩ ⟨subject, .travel t⟩ computedAt) ∧
      ∀ subject u computedAt, ∃ m s ties,
        Basis.evaluate ⟨c, directory, settings, asOf⟩ ⟨subject, .equipment u⟩ computedAt =
          .ok ⟨[m], ties⟩ ∧ m.snapshot = .equipment s ∧ s.gridSource = .factor ∧
        ∃ f ∈ Factor.grids, f.id ∈ m.factors ∧ f.kgPerKwh? = some s.kgPerKwh := by
  let b : Basis := ⟨.seeded, directory, settings, asOf⟩
  have hb : b.catalog = .seeded := rfl
  refine ⟨.seeded, Catalog.ofList_seeds, ?_, ?_, ?_⟩
  · intro subject h computedAt
    exact Basis.seeded_headcount_completes hb hasOf subject h computedAt
  · intro subject t computedAt hpossible
    exact Basis.seeded_trip_completes hb hasOf subject hpossible computedAt
  · intro subject u computedAt
    obtain ⟨f, hf, x, hx, hgrid⟩ := Basis.seeded_grid hb hasOf (b.gridCountry u)
    obtain ⟨m, s, ties, he, hs, hsource, hkg, htold, _⟩ :=
      b.evaluate_equipment subject u computedAt
    rw [hgrid] at hsource hkg htold
    exact ⟨m, s, ties, he, hs, hsource, f, hf, htold f.id rfl, hx.trans (congrArg some hkg.symm)⟩

def strictSettings : Settings := { Settings.default with domesticCountry := " de", ties := .refuse }

/-- A headcount, a train to Munich and a lamp with no country, from the start of the seeds. -/
theorem seeds_cover_train_to_munich :
    let directory := Directory.ofList Directory.referenceLocations
    let t : Trip := ⟨101, 106, " TRAIN", none, 2⟩
    (∀ x, some Factor.seedStart = some x → Factor.seedStart ≤ x) ∧ t.Possible directory ∧
      ∃ c, Catalog.ofList Factor.seeds = .ok c ∧
        let b : Basis := ⟨c, directory, strictSettings, some Factor.seedStart⟩
        b.Completes ⟨7, .headcount ⟨12.5, some "visitor"⟩⟩ default ∧
        b.Completes ⟨8, .travel t⟩ default ∧
        ∃ m s ties, b.evaluate ⟨9, .equipment (deskLamp (some "  "))⟩ default = .ok ⟨[m], ties⟩ ∧
          m.snapshot = .equipment s ∧ s.gridSource = .factor := by
  intro directory t
  have hasOf : ∀ x, some Factor.seedStart = some x → Factor.seedStart ≤ x := by
    rintro x ⟨⟩
    decide
  have hpossible : t.Possible directory := by
    refine ⟨_, _, ⟨"train", by decide, by cbv⟩, rfl, rfl, ?_, ?_⟩
    · exact Coordinates.onGlobe_iff.mp (by decide +kernel)
    · exact Coordinates.onGlobe_iff.mp (by decide +kernel)
  obtain ⟨c, hc, hheadcounts, htrips, hequipment⟩ :=
    seeds_cover_staff_trips_and_grids directory strictSettings (some Factor.seedStart) hasOf
  obtain ⟨m, s, ties, he, hs, hsource, _⟩ := hequipment 9 (deskLamp (some "  ")) default
  exact ⟨hasOf, hpossible, c, hc, hheadcounts _ _ _, htrips _ _ _ hpossible, m, s, ties, he, hs,
    hsource⟩

end CarbonLedger
