import CarbonLedger.Proofs.CatalogRuns
import CarbonLedger.Proofs.FactorProvenance
import CarbonLedger.Proofs.LabelQueries
import CarbonLedger.Proofs.LetterCase

namespace CarbonLedger

theorem Country.normal_upper (code : String) : normal (Text.upper code) = normal code := by
  rw [normal, normal]
  simp only [Text.trim_upper, Text.sameLetters_upper, Text.upper_upper]

namespace Catalog
variable {c : Catalog} {country : String} {asOf : Option Instant}

def gridsOf (c : Catalog) (country : String) (asOf : Option Instant) : List Factor :=
  c.bearing .electricityMix "country_code" country asOf

/-- The factor for the grid of a country: the first of its plainest ones, or else of those of the
rest of the world. -/
def gridFactor? (c : Catalog) (country : String) (asOf : Option Instant) : Option Factor :=
  (c.plainest .electricityMix "country_code" country asOf).head?.or
    (c.plainest .electricityMix "country_code" Country.restOfWorld asOf).head?

/-- No factor gives the mix when there is none for the country and none for the rest of the
world. -/
theorem gridFactor?_eq_none_iff : c.gridFactor? country asOf = none ↔
    c.gridsOf country asOf = [] ∧ c.gridsOf Country.restOfWorld asOf = [] := by
  rw [gridFactor?, Option.or_eq_none_iff, List.head?_eq_none_iff, List.head?_eq_none_iff,
    plainest_eq_nil_iff, plainest_eq_nil_iff]
  rfl

theorem mem_of_gridFactor? {f : Factor} (h : c.gridFactor? country asOf = some f) :
    f ∈ c.gridsOf country asOf ∨
      c.gridsOf country asOf = [] ∧ f ∈ c.gridsOf Country.restOfWorld asOf := by
  rw [gridFactor?, Option.or_eq_some_iff] at h
  rcases h with h | ⟨hnone, h⟩
  · exact Or.inl (mem_bearing_of_mem_plainest (List.mem_of_head? h))
  · rw [List.head?_eq_none_iff, plainest_eq_nil_iff] at hnone
    exact Or.inr ⟨hnone, mem_bearing_of_mem_plainest (List.mem_of_head? h)⟩

theorem kind_of_gridFactor? {f : Factor} (h : c.gridFactor? country asOf = some f) :
    f.kind = .electricityMix := by
  have hkind {country : String} (hf : f ∈ c.gridsOf country asOf) : f.kind = .electricityMix :=
    (Factor.bears_iff.mp (List.mem_filter.mp hf).2).1
  rcases mem_of_gridFactor? h with hown | ⟨_, hworld⟩
  · exact hkind hown
  · exact hkind hworld

end Catalog

def Factor.kgPerKwh? (f : Factor) : Option Float := f.quantities.usable? "kg_co2eq_per_kwh"

/-- A mix factor is usable when it has a finite number of kilograms per kilowatt hour. -/
theorem Factor.gridPayload_eq {f : Factor} (h : f.kind = .electricityMix) :
    (Payload.ofFactor f : Except PayloadError GridFactor) =
      match f.kgPerKwh? with
      | some x => .ok ⟨f.id, x⟩
      | none => .error (.missing f.id "kg_co2eq_per_kwh") := by
  have hkind : f.ofKind .electricityMix = .ok () := if_pos h
  simp only [Payload.ofFactor, hkind, Factor.need, kgPerKwh?]
  cases f.quantities.usable? "kg_co2eq_per_kwh" <;> rfl

namespace Basis
variable {b : Basis}

/-- The intensity of a grid comes from its factor if the factor has a number, and from the settings
in all other cases. -/
theorem grid_by_factor (hties : b.settings.ties = .takeFirst) (code : String) :
    (∃ f x, b.catalog.gridFactor? (Country.normal code) b.asOf = some f ∧ f.kgPerKwh? = some x ∧
      (b.grid code).1 = ⟨code, x, some f.id⟩) ∨
    (∀ f, b.catalog.gridFactor? (Country.normal code) b.asOf = some f → f.kgPerKwh? = none) ∧
      (b.grid code).1 = .ofSettings code b.settings := by
  have hfound : (b.resolve (.electricityMix code)).map (·.factor) =
      b.catalog.gridFactor? (Country.normal code) b.asOf := by
    rw [Query.electricityMix, resolve_require, hties, Catalog.factor_resolve_country]
    rfl
  rw [← hfound, grid, lookup]
  cases hr : b.resolve (.electricityMix code) with
  | none =>
    refine Or.inr ⟨?_, rfl⟩
    intro f hf
    cases hf
  | some r =>
    rw [hr] at hfound
    have hkind : r.factor.kind = .electricityMix := Catalog.kind_of_gridFactor? hfound.symm
    have hpayload := Factor.gridPayload_eq hkind
    -- A factor without a number is found all the same, but there is no payload of it.
    cases hx : r.factor.kgPerKwh? with
    | some x =>
      rw [hx] at hpayload
      simp only [hpayload]
      exact Or.inl ⟨r.factor, x, rfl, hx, rfl⟩
    | none =>
      rw [hx] at hpayload
      simp only [hpayload, and_true]
      right
      rintro f ⟨⟩
      exact hx

/-- What an emission of equipment tells of its grid. The other ids that it tells are those of
ratings. -/
theorem evaluate_equipment (b : Basis) (subject : Int64) (u : EquipmentUse) (computedAt : Instant) :
    let grid := (b.grid (b.gridCountry u)).1
    ∃ m s ties, b.evaluate ⟨subject, .equipment u⟩ computedAt = .ok ⟨[m], ties⟩ ∧
      m.snapshot = .equipment s ∧ s.gridSource = grid.source ∧ s.kgPerKwh = grid.kgPerKwh ∧
      (∀ id, grid.factor = some id → id ∈ m.factors) ∧
      ∀ id ∈ m.factors, grid.factor = some id ∨
        ∃ f ∈ b.catalog.factors, f.id = id ∧ f.kind = .equipment := by
  intro grid
  let power := (b.lookup (α := PowerRating) (.equipment u.submodule u.equipmentClass u.subClass)).1
  refine ⟨(u.calculate power grid b.settings).toEmission subject computedAt,
    u.snapshot power grid b.settings, (b.equipment u).ambiguities, rfl, rfl, rfl, rfl, ?_, ?_⟩
  · intro id hid
    exact List.mem_append_right _ (Option.mem_toList.mpr hid)
  · intro id hid
    rcases mem_factorsUsed hid with hid | hid
    · exact Or.inr (known_of_mem_factors (b := b) rfl hid)
    · exact Or.inl hid

end Basis

/-- Equipment comes at the intensity of the settings exactly if its grid has no factor or one
without a number that can be used; no factor of a grid is told then. In all other cases the
intensity is that of the factor, which is told. The grid has no factor exactly if none in the window
is for the country and none for the rest of the world; a factor for the country comes before one for
the rest of the world. -/
theorem default_intensity_iff_no_usable_factor {c : Catalog} {settings : Settings} (hc : c.Reached)
    (hties : settings.ties = .takeFirst) (directory : Directory) (asOf : Option Instant)
    (subject : Int64) (u : EquipmentUse) (computedAt : Instant) :
    let country := Country.normal ((u.countryCode.bind Text.filled?).getD settings.domesticCountry)
    (c.gridFactor? country asOf = none ↔
      c.gridsOf country asOf = [] ∧ c.gridsOf Country.restOfWorld asOf = []) ∧
    (∀ f, c.gridFactor? country asOf = some f → f ∈ c.gridsOf country asOf ∨
      c.gridsOf country asOf = [] ∧ f ∈ c.gridsOf Country.restOfWorld asOf) ∧
    ∃ m s ties, Basis.evaluate ⟨c, directory, settings, asOf⟩ ⟨subject, .equipment u⟩ computedAt =
        .ok ⟨[m], ties⟩ ∧ m.snapshot = .equipment s ∧
      (s.gridSource = .default ↔
        ∀ f, c.gridFactor? country asOf = some f → f.kgPerKwh? = none) ∧
      (s.gridSource = .default → s.kgPerKwh = settings.defaultKgPerKwh ∧
        ∀ f ∈ c.factors, f.kind = .electricityMix → f.id ∉ m.factors) ∧
      (s.gridSource = .factor → ∃ f, c.gridFactor? country asOf = some f ∧
        f.kgPerKwh? = some s.kgPerKwh ∧ f.id ∈ m.factors) := by
  intro country
  refine ⟨Catalog.gridFactor?_eq_none_iff, fun _ => Catalog.mem_of_gridFactor?, ?_⟩
  let b : Basis := ⟨c, directory, settings, asOf⟩
  have hcountry : Country.normal (b.gridCountry u) = country := Country.normal_upper _
  have hgrid := Basis.grid_by_factor (b := b) hties (b.gridCountry u)
  rw [hcountry] at hgrid
  obtain ⟨m, s, ties, he, hs, hsource, hkg, htold, hothers⟩ :=
    b.evaluate_equipment subject u computedAt
  refine ⟨m, s, ties, he, hs, ?_⟩
  rcases hgrid with ⟨f, x, hf, hx, hgrid⟩ | ⟨hnone, hgrid⟩
  · rw [hgrid] at hsource hkg htold
    have hfactor : s.gridSource = .factor := hsource
    rw [hfactor, hkg]
    refine ⟨?_, GridSource.noConfusion, fun _ => ⟨f, hf, hx, htold f.id rfl⟩⟩
    refine iff_of_false GridSource.noConfusion ?_
    intro h
    rw [h f hf] at hx
    cases hx
  · rw [hgrid] at hsource hkg hothers
    have hdefault : s.gridSource = .default := hsource
    rw [hdefault]
    refine ⟨iff_of_true rfl hnone, fun _ => ⟨hkg, ?_⟩, GridSource.noConfusion⟩
    intro f hf hkind hid
    rcases hothers f.id hid with hgrid | ⟨g, hg, hgid, hgkind⟩
    · cases hgrid
    · -- No grid factor shares its id with a rating.
      have hsame := hc.sound.eq_of_id_eq hg hf hgid
      rw [hsame, hkind] at hgkind
      cases hgkind

def gridOf (id : Int64) (country : String) (quantities : List (String × Float)) : Factor :=
  ⟨id, .electricityMix, .ofList [("country_code", .text country)], .ofList quantities, default,
    none⟩

def deskLamp (country : Option String) : EquipmentUse :=
  ⟨"office", "lamp", none, .inService, .hours 40.0 0.0, some 60.0, some 0.0, country⟩

/-- A lamp in France, of which the catalog has no mix factor, runs on that of the rest of the
world. -/
theorem french_lamp_runs_on_world_grid :
    let world := gridOf 22 Country.restOfWorld [("kg_co2eq_per_kwh", 0.4)]
    let c : Catalog := ⟨[gridOf 21 "CH" [("kg_co2eq_per_kwh", 0.125)], world]⟩
    c.Reached ∧ Settings.default.ties = .takeFirst ∧
      ∃ m s ties, Basis.evaluate ⟨c, .empty, .default, none⟩
          ⟨7, .equipment (deskLamp (some " fr "))⟩ default = .ok ⟨[m], ties⟩ ∧
        m.snapshot = .equipment s ∧ s.gridSource = .factor ∧ s.kgPerKwh = 0.4 ∧
        22 ∈ m.factors := by
  intro world c
  have hc : c.Reached := (Catalog.Reached.empty.call (.enter (gridOf 21 "CH" _)) trivial).call
    (.enter world) trivial
  have hties : Settings.default.ties = .takeFirst := rfl
  have hcountry : Country.normal (((deskLamp (some " fr ")).countryCode.bind Text.filled?).getD
      Settings.default.domesticCountry) = "FR" := by decide +kernel
  have hgrid : c.gridFactor? "FR" none = some world := by
    have hfound (p q : List (String × Float)) :
        (⟨[gridOf 21 "CH" p, gridOf 22 Country.restOfWorld q]⟩ : Catalog).gridFactor? "FR" none =
          some (gridOf 22 Country.restOfWorld q) := by rfl
    exact hfound _ _
  obtain ⟨_, _, m, s, ties, he, hs, hdefault, _, hfactor⟩ :=
    default_intensity_iff_no_usable_factor hc hties .empty none 7 (deskLamp (some " fr ")) default
  rw [hcountry, hgrid] at hdefault hfactor
  have hkg : world.kgPerKwh? = some 0.4 := by rfl
  have hsource : s.gridSource = .factor := by
    cases hsource : s.gridSource with
    | factor => rfl
    | default =>
      have hnone := hdefault.mp hsource world rfl
      rw [hkg] at hnone
      cases hnone
  obtain ⟨f, hf, hx, hid⟩ := hfactor hsource
  cases hf
  rw [hkg] at hx
  exact ⟨hc, hties, m, s, ties, he, hs, hsource, (Option.some.inj hx).symm, hid⟩

/-- The Swiss factor has no number, so equipment in Switzerland comes at the intensity of the
settings, as it does where there is no factor at all. -/
theorem swiss_grid_without_number_is_passed_over :
    let grid := gridOf 21 "CH" []
    let c : Catalog := ⟨[grid]⟩
    c.Reached ∧ Settings.default.ties = .takeFirst ∧ c.gridsOf "CH" none = [grid] ∧
      ∃ m s ties, Basis.evaluate ⟨c, .empty, .default, none⟩ ⟨1, .equipment (deskLamp (some "CH"))⟩
          default = .ok ⟨[m], ties⟩ ∧ m.snapshot = .equipment s ∧ s.gridSource = .default ∧
        s.kgPerKwh = 0.125 ∧ m.factors = [] ∧ m.isComplete = true := by
  intro grid c
  have hc : c.Reached := Catalog.Reached.empty.call (.enter grid) trivial
  let b : Basis := ⟨c, .empty, .default, none⟩
  have hcountry : b.gridCountry (deskLamp (some "CH")) = "CH" := by decide +kernel
  have hnormal : Country.normal "CH" = "CH" := by decide +kernel
  have hfound : c.gridFactor? (Country.normal "CH") none = some grid := by
    rw [hnormal]
    rfl
  have hgrid : (b.grid (b.gridCountry (deskLamp (some "CH")))).1 =
      .ofSettings "CH" Settings.default := by
    rw [hcountry]
    rcases Basis.grid_by_factor (b := b) rfl "CH" with ⟨f, x, hf, hx, _⟩ | ⟨_, hsettings⟩
    · cases hfound.symm.trans hf
      cases hx
    · exact hsettings
  let power := (b.lookup (α := PowerRating) (.equipment "office" "lamp" none)).1
  refine ⟨hc, rfl, rfl, ((deskLamp (some "CH")).calculate power (.ofSettings "CH" .default)
    .default).toEmission 1 default, _, (b.equipment (deskLamp (some "CH"))).ambiguities, ?_, rfl,
    rfl, rfl, rfl, rfl⟩
  rw [← hgrid]
  rfl

end CarbonLedger
