import CarbonLedger.Proofs.EquipmentRules
import CarbonLedger.Proofs.EvaluationCases
import CarbonLedger.Proofs.ResolutionRank

namespace CarbonLedger

structure FactorNumber where
  kind : EmissionKind
  key : String
  value : Float

def Factor.Holds (f : Factor) (n : FactorNumber) : Prop :=
  f.kind = n.kind ∧ f.quantities.get? n.key = some n.value

def Factor.Offers (f : Factor) (n : FactorNumber) : Prop :=
  f.kind = n.kind ∧ f.quantities.usable? n.key = some n.value

def Activity.ownRatings : Activity → Option Float × Option Float
  | .equipment u => (u.activeW, u.standbyW)
  | _ => (none, none)

namespace Snapshot

def lookedUp : Snapshot → List EmissionKind
  | .equipment _ => [.equipment, .electricityMix]
  | .flight _ => [.flight]
  | .train _ => [.train]
  | .headcount _ => [.headcount]
  | .externalCloud _ => [.externalCloud]
  | .externalAi _ => [.externalAi]

def drawnRating (own rating : Option Float) (key : String) : List FactorNumber :=
  if own.isSome then [] else rating.toList.map (⟨.equipment, key, ·⟩)

def drawn (a : Activity) (kind : EmissionKind) : Snapshot → List FactorNumber
  | .equipment s =>
    drawnRating a.ownRatings.1 s.activeW "active_power_w" ++
      drawnRating a.ownRatings.2 s.standbyW "standby_power_w" ++
      if s.gridSource = .factor then [⟨.electricityMix, "kg_co2eq_per_kwh", s.kgPerKwh⟩] else []
  | .flight s =>
    s.impactScore.toList.map (⟨.flight, "impact_score", ·⟩) ++
      s.heightMultiplier.toList.map (⟨.flight, "rfi_adjustment", ·⟩)
  | .train s => s.impactScore.toList.map (⟨.train, "impact_score", ·⟩)
  | .headcount s => s.kgPerPosition.toList.map (⟨.headcount, kind.name ++ "_kg", ·⟩)
  | .externalCloud s =>
    s.kgPerUnit.toList.map (⟨.externalCloud, "kg_co2eq_per_currency_unit", ·⟩)
  | .externalAi s => s.gramsPerRequest.toList.map (⟨.externalAi, "g_co2eq_per_unit", ·⟩)

end Snapshot

/-- What an emission says of factors is borne out by a catalog: all of its ids are those of factors
that its formula looks up, and the factors among them hold its numbers. -/
structure Catalog.Backs (c : Catalog) (a : Activity) (kind : EmissionKind) (s : Snapshot)
    (factors : List Int64) : Prop where
  known : ∀ id ∈ factors, ∃ f ∈ c.factors, f.id = id ∧ f.kind ∈ s.lookedUp
  held : ∀ n ∈ s.drawn a kind, ∃ f ∈ c.factors, f.id ∈ factors ∧ f.Holds n

namespace Factor
variable {f : Factor}

theorem kind_of_ofKind {k : EmissionKind} {u : Unit} (h : f.ofKind k = .ok u) : f.kind = k := by
  rw [ofKind] at h
  split at h
  · next hk => exact hk
  · cases h

theorem Offers.holds {n : FactorNumber} (h : f.Offers n) : f.Holds n :=
  ⟨h.1, (Option.filter_eq_some_iff.mp h.2).1⟩

theorem Offers.isFinite {n : FactorNumber} (h : f.Offers n) : n.value.isFinite = true :=
  (Option.filter_eq_some_iff.mp h.2).2

theorem usable?_of_need {key : String} {x : Float} (h : f.need key = .ok x) :
    f.quantities.usable? key = some x := by
  rw [need] at h
  split at h
  · next y hy =>
    cases h
    exact hy
  · cases h

end Factor

class Payload.Numbered (α : Type) [Payload α] where
  kind : EmissionKind
  numbers : α → List FactorNumber
  of_ok {f : Factor} {p : α} (h : Payload.ofFactor f = .ok p) :
    Payload.factor p = f.id ∧ f.kind = kind ∧ ∀ n ∈ numbers p, f.Offers n

namespace Payload

section Needs
variable {f : Factor} {kind : EmissionKind} {u : Unit}

/-- A number that a payload needs is one the factor offers. -/
theorem offers_of_need (h : f.ofKind kind = .ok u) {key : String} {x : Float}
    (hx : f.need key = .ok x) : f.Offers ⟨kind, key, x⟩ :=
  ⟨Factor.kind_of_ofKind h, Factor.usable?_of_need hx⟩

theorem of_ok_of_need {α : Type} {mk : Int64 → Float → α} {key : String} {p : α}
    (h : (do
      f.ofKind kind
      return mk f.id (← f.need key) : Except PayloadError α) = .ok p) :
    ∃ x, p = mk f.id x ∧ f.kind = kind ∧ f.Offers ⟨kind, key, x⟩ := by
  obtain ⟨_, hkind, h⟩ := bind_eq_ok.mp h
  obtain ⟨x, hx, h⟩ := bind_eq_ok.mp h
  cases h
  exact ⟨x, rfl, Factor.kind_of_ofKind hkind, offers_of_need hkind hx⟩

end Needs

instance : Numbered PowerRating where
  kind := .equipment
  numbers p := p.activeW.toList.map (⟨.equipment, "active_power_w", ·⟩) ++
    p.standbyW.toList.map (⟨.equipment, "standby_power_w", ·⟩)
  of_ok := by
    intro f p h
    obtain ⟨_, hkind, h⟩ := bind_eq_ok.mp h
    cases h
    have hkind := Factor.kind_of_ofKind hkind
    refine ⟨rfl, hkind, ?_⟩
    intro n hn
    rcases List.mem_append.mp hn with hn | hn
    · obtain ⟨x, hx, rfl⟩ := List.mem_map.mp hn
      exact ⟨hkind, Option.mem_toList.mp hx⟩
    · obtain ⟨x, hx, rfl⟩ := List.mem_map.mp hn
      exact ⟨hkind, Option.mem_toList.mp hx⟩

instance : Numbered GridFactor where
  kind := .electricityMix
  numbers p := [⟨.electricityMix, "kg_co2eq_per_kwh", p.kgPerKwh⟩]
  of_ok := by
    intro f p h
    obtain ⟨x, rfl, hkind, hx⟩ := of_ok_of_need h
    exact ⟨rfl, hkind, List.forall_mem_singleton.mpr hx⟩

instance : Numbered FlightFactor where
  kind := .flight
  numbers p := [⟨.flight, "impact_score", p.impactScore⟩,
    ⟨.flight, "rfi_adjustment", p.heightMultiplier⟩]
  of_ok := by
    intro f p h
    obtain ⟨_, hkind, h⟩ := bind_eq_ok.mp h
    obtain ⟨x, hx, h⟩ := bind_eq_ok.mp h
    obtain ⟨y, hy, h⟩ := bind_eq_ok.mp h
    cases h
    refine ⟨rfl, Factor.kind_of_ofKind hkind, ?_⟩
    simp only [List.forall_mem_cons, List.not_mem_nil, false_implies, implies_true, and_true]
    exact ⟨offers_of_need hkind hx, offers_of_need hkind hy⟩

instance : Numbered TrainFactor where
  kind := .train
  numbers p := [⟨.train, "impact_score", p.impactScore⟩]
  of_ok := by
    intro f p h
    obtain ⟨x, rfl, hkind, hx⟩ := of_ok_of_need h
    exact ⟨rfl, hkind, List.forall_mem_singleton.mpr hx⟩

instance : Numbered StaffFactor where
  kind := .headcount
  numbers p := [⟨.headcount, "food_kg", p.foodKg⟩, ⟨.headcount, "waste_kg", p.wasteKg⟩,
    ⟨.headcount, "transport_kg", p.transportKg⟩, ⟨.headcount, "grey_energy_kg", p.greyEnergyKg⟩]
  of_ok := by
    intro f p h
    obtain ⟨_, hkind, h⟩ := bind_eq_ok.mp h
    obtain ⟨x, hx, h⟩ := bind_eq_ok.mp h
    obtain ⟨y, hy, h⟩ := bind_eq_ok.mp h
    obtain ⟨z, hz, h⟩ := bind_eq_ok.mp h
    obtain ⟨w, hw, h⟩ := bind_eq_ok.mp h
    cases h
    refine ⟨rfl, Factor.kind_of_ofKind hkind, ?_⟩
    simp only [List.forall_mem_cons, List.not_mem_nil, false_implies, implies_true, and_true]
    exact ⟨offers_of_need hkind hx, offers_of_need hkind hy, offers_of_need hkind hz,
      offers_of_need hkind hw⟩

theorem mem_numbers_of_kgPerPosition? {p : StaffFactor} {k : EmissionKind} {x : Float}
    (h : p.kgPerPosition? k = some x) : ⟨.headcount, k.name ++ "_kg", x⟩ ∈ Numbered.numbers p := by
  cases k with
  | food =>
    cases h
    exact .head _
  | waste =>
    cases h
    exact .tail _ (.head _)
  | transport =>
    cases h
    exact .tail _ (.tail _ (.head _))
  | greyEnergy =>
    cases h
    exact .tail _ (.tail _ (.tail _ (.head _)))
  | _ => cases h

instance : Numbered SpendFactor where
  kind := .externalCloud
  numbers p := [⟨.externalCloud, "kg_co2eq_per_currency_unit", p.kgPerUnit⟩]
  of_ok := by
    intro f p h
    obtain ⟨x, rfl, hkind, hx⟩ := of_ok_of_need h
    exact ⟨rfl, hkind, List.forall_mem_singleton.mpr hx⟩

instance : Numbered RequestFactor where
  kind := .externalAi
  numbers p := [⟨.externalAi, "g_co2eq_per_unit", p.gramsPerRequest⟩]
  of_ok := by
    intro f p h
    obtain ⟨x, rfl, hkind, hx⟩ := of_ok_of_need h
    exact ⟨rfl, hkind, List.forall_mem_singleton.mpr hx⟩

end Payload

def Lookup.numbers {α : Type} [Payload α] [Payload.Numbered α] : Lookup α → List FactorNumber
  | .ok p => Payload.Numbered.numbers p
  | .error _ => []

theorem Catalog.factor_mem_ofKind {c : Catalog} {q : Query} {r : Resolution}
    (h : c.resolve q = some r) : r.factor ∈ c.ofKind q.kind := by
  rw [resolve, Query.resolveAnywhere] at h
  split at h
  · next found hfound =>
    cases h
    exact (Query.eligible_of_resolve hfound).1
  · split at h
    · cases h
    · -- The rest of the world is looked for among the same candidates.
      obtain ⟨found, hfound, rfl⟩ := Option.map_eq_some_iff.mp h
      exact (Query.eligible_of_resolve (r := found) hfound).1

/-- A resolved factor is in the catalog, also where it is the one for the rest of the world. -/
theorem Catalog.factor_mem_of_resolve {c : Catalog} {q : Query} {r : Resolution}
    (h : c.resolve q = some r) : r.factor ∈ c.factors :=
  (mem_ofKind.mp (factor_mem_ofKind h)).1

namespace Basis

section Lookups
variable {b : Basis} {α : Type} [Payload α] [Payload.Numbered α] {q : Query}

/-- A payload is made from a factor of the catalog that offers its numbers. -/
theorem factor_of_lookup {p : α} (h : (b.lookup q).1 = .ok p) :
    ∃ f ∈ b.catalog.factors, f.id = Payload.factor p ∧ f.kind = Payload.Numbered.kind α ∧
      ∀ n ∈ Payload.Numbered.numbers p, f.Offers n := by
  rw [lookup] at h
  split at h
  · cases h
  · next r hr =>
    split at h
    · next p' hp =>
      cases h
      obtain ⟨hid, hkind, hoffers⟩ := Payload.Numbered.of_ok hp
      exact ⟨r.factor, Catalog.factor_mem_of_resolve hr, hid.symm, hkind, hoffers⟩
    · cases h

theorem known_of_mem_factors {x : Lookup α} (hx : x = (b.lookup q).1) {id : Int64}
    (h : id ∈ x.factors) :
    ∃ f ∈ b.catalog.factors, f.id = id ∧ f.kind = Payload.Numbered.kind α := by
  cases x with
  | error u => cases h
  | ok p =>
    obtain ⟨f, hf, hid, hkind, _⟩ := factor_of_lookup hx.symm
    exact ⟨f, hf, hid.trans (List.mem_singleton.mp h).symm, hkind⟩

/-- A formula with one lookup is borne out if all that it draws are numbers of the payload. -/
theorem backs_of_lookup {a : Activity} {kind : EmissionKind} {s : Snapshot} {x : Lookup α}
    (hx : x = (b.lookup q).1) (hkind : Payload.Numbered.kind α ∈ s.lookedUp)
    (hdrawn : s.drawn a kind ⊆ x.numbers) : b.catalog.Backs a kind s x.factors := by
  refine ⟨?_, ?_⟩
  · intro id hid
    obtain ⟨f, hf, hfid, hfkind⟩ := known_of_mem_factors hx hid
    exact ⟨f, hf, hfid, hfkind ▸ hkind⟩
  · intro n hn
    cases x with
    | error u => cases hdrawn hn
    | ok p =>
      obtain ⟨f, hf, hid, _, hoffers⟩ := factor_of_lookup hx.symm
      exact ⟨f, hf, hid ▸ List.mem_singleton_self _, (hoffers n (hdrawn hn)).holds⟩

end Lookups

section Equipment
variable {b : Basis}

/-- The intensity of a grid comes from a factor or from the settings. -/
theorem grid_cases (b : Basis) (code : String) :
    (∃ p : GridFactor, (b.lookup (.electricityMix code)).1 = .ok p ∧
      (b.grid code).1 = .ofFactor code p) ∨
    (b.grid code).1 = .ofSettings code b.settings := by
  rw [grid]
  split
  · next p tie hlookup => exact Or.inl ⟨p, by rw [hlookup], rfl⟩
  · exact Or.inr rfl

theorem grid_of_lookup {code : String} {p : GridFactor}
    (h : (b.lookup (.electricityMix code)).1 = .ok p) : (b.grid code).1 = .ofFactor code p := by
  rw [grid]
  split
  · next hlookup =>
    rw [hlookup] at h
    cases h
    rfl
  · next hlookup =>
    rw [hlookup] at h
    cases h

theorem rating_of_drawn {own : Option Float} {key : String} {n : FactorNumber}
    {x : Lookup PowerRating} {rating : PowerRating → Option Float}
    (hn : n ∈ Snapshot.drawnRating own (own.or (x.payload?.bind rating)) key) :
    ∃ p w, x = .ok p ∧ own = none ∧ rating p = some w ∧ n = ⟨.equipment, key, w⟩ := by
  cases own with
  | some w => cases hn
  | none =>
    cases x with
    | error f => cases hn
    | ok p =>
      obtain ⟨w, hw, rfl⟩ := List.mem_map.mp hn
      exact ⟨p, w, rfl, rfl, Option.mem_toList.mp hw, rfl⟩

theorem held_rating {own : Option Float} {key : String} {n : FactorNumber} {q : Query}
    {x : Lookup PowerRating} {rating : PowerRating → Option Float} {factors : List Int64}
    (hx : x = (b.lookup q).1)
    (hnumber : ∀ p w, rating p = some w → ⟨.equipment, key, w⟩ ∈ Payload.Numbered.numbers p)
    (hused : ∀ p w, x = .ok p → own = none → rating p = some w → p.factor ∈ factors)
    (hn : n ∈ Snapshot.drawnRating own (own.or (x.payload?.bind rating)) key) :
    ∃ f ∈ b.catalog.factors, f.id ∈ factors ∧ f.Holds n := by
  obtain ⟨p, w, rfl, hown, hw, rfl⟩ := rating_of_drawn hn
  obtain ⟨f, hf, hid, _, hoffers⟩ := factor_of_lookup hx.symm
  exact ⟨f, hf, hid ▸ hused p w rfl hown hw, (hoffers _ (hnumber p w hw)).holds⟩

theorem factor_mem_of_rating {u : EquipmentUse} {p : PowerRating} (grid : GridIntensity) {w : Float}
    (h : u.activeW = none ∧ p.activeW = some w ∨ u.standbyW = none ∧ p.standbyW = some w) :
    p.factor ∈ u.factorsUsed (.ok p) grid := by
  have hrated : (u.activeDraw (.ok p) 0.0).RatedByFactor ∨
      (u.standbyDraw (.ok p) 0.0).RatedByFactor :=
    h.imp (fun hactive => ⟨hactive.1, w, hactive.2⟩) (fun hstandby => ⟨hstandby.1, w, hstandby.2⟩)
  rw [EquipmentUse.factorsUsed_of_rated hrated]
  exact List.mem_cons_self

theorem mem_factorsUsed {u : EquipmentUse} {power : Lookup PowerRating} {grid : GridIntensity}
    {id : Int64} (h : id ∈ u.factorsUsed power grid) :
    id ∈ power.factors ∨ grid.factor = some id := by
  rcases List.mem_append.mp h with h | h
  · split at h
    · exact Or.inl h
    · cases h
  · exact Or.inr (Option.mem_toList.mp h)

/-- The factors of equipment are in the catalog, with the kinds it looks up. -/
theorem known_equipment (u : EquipmentUse) {power : Lookup PowerRating} {grid : GridIntensity}
    {q : Query} {code : String} (hpower : power = (b.lookup q).1) (hgrid : grid = (b.grid code).1) :
    ∀ id ∈ u.factorsUsed power grid, ∃ f ∈ b.catalog.factors, f.id = id ∧
      f.kind ∈ [EmissionKind.equipment, .electricityMix] := by
  intro id hid
  rcases mem_factorsUsed hid with hid | hid
  · -- The id is that of the ratings.
    obtain ⟨f, hf, hfid, hkind⟩ := known_of_mem_factors hpower hid
    refine ⟨f, hf, hfid, ?_⟩
    rw [hkind]
    exact List.mem_cons_self
  · rcases grid_cases b code with ⟨p, hp, hfactor⟩ | hsettings
    · obtain ⟨f, hf, hfid, hkind, _⟩ := factor_of_lookup hp
      rw [hgrid, hfactor] at hid
      refine ⟨f, hf, hfid.trans (Option.some.inj hid), ?_⟩
      rw [hkind]
      exact List.mem_cons_of_mem _ List.mem_cons_self
    · rw [hgrid, hsettings] at hid
      cases hid

/-- The numbers of an equipment snapshot are held by the factors it names. -/
theorem held_equipment (u : EquipmentUse) {power : Lookup PowerRating} {grid : GridIntensity}
    {q : Query} {code : String} (hpower : power = (b.lookup q).1) (hgrid : grid = (b.grid code).1) :
    ∀ n ∈ (Snapshot.equipment (u.snapshot power grid b.settings)).drawn (.equipment u) .equipment,
      ∃ f ∈ b.catalog.factors, f.id ∈ u.factorsUsed power grid ∧ f.Holds n := by
  intro n hn
  rcases List.mem_append.mp hn with hn | hn
  · rcases List.mem_append.mp hn with hn | hn
    · refine held_rating hpower ?_ ?_ hn
      · intro p w hw
        exact List.mem_append_left _ (List.mem_map.mpr ⟨w, Option.mem_toList.mpr hw, rfl⟩)
      · rintro p w rfl hown hw
        exact factor_mem_of_rating grid (Or.inl ⟨hown, hw⟩)
    · refine held_rating hpower ?_ ?_ hn
      · intro p w hw
        exact List.mem_append_right _ (List.mem_map.mpr ⟨w, Option.mem_toList.mpr hw, rfl⟩)
      · rintro p w rfl hown hw
        exact factor_mem_of_rating grid (Or.inr ⟨hown, hw⟩)
  · rcases grid_cases b code with ⟨p, hp, hfactor⟩ | hsettings
    · obtain ⟨f, hf, hid, _, hoffers⟩ := factor_of_lookup hp
      rw [hgrid, hfactor] at hn ⊢
      refine ⟨f, hf, ?_, (hoffers n hn).holds⟩
      rw [hid]
      exact List.mem_append_right _ (List.mem_singleton_self _)
    · -- The intensity of the settings is no factor's, and the snapshot says so.
      rw [hgrid, hsettings] at hn
      cases hn

end Equipment

/-- What an activity computes is backed by the catalog. -/
theorem Works.backs {b : Basis} {a : Activity} {cs : List Calculation} (h : b.Works a cs) :
    ∀ c ∈ cs, b.catalog.Backs a c.kind c.snapshot c.factors := by
  cases h with
  | equipment u =>
    simp only [List.forall_mem_singleton]
    exact ⟨known_equipment u rfl rfl, held_equipment u rfl rfl⟩
  | unknownLocation t mode missing =>
    simp only [List.forall_mem_singleton]
    cases mode with
    | plane => exact ⟨List.forall_mem_nil _, List.forall_mem_nil _⟩
    | train => exact ⟨List.forall_mem_nil _, List.forall_mem_nil _⟩
  | @flight t haul km s c hover =>
    simp only [List.forall_mem_singleton]
    rw [hover.factors, hover.snapshot]
    apply backs_of_lookup rfl (List.mem_singleton_self _)
    rw [Snapshot.drawn, hover.impactScore, hover.heightMultiplier]
    cases (b.lookup (α := FlightFactor) (.flight haul)).1 <;> exact List.Subset.refl _
  | @train t country km s c hover =>
    simp only [List.forall_mem_singleton]
    rw [hover.factors, hover.snapshot]
    apply backs_of_lookup rfl (List.mem_singleton_self _)
    rw [Snapshot.drawn, hover.impactScore]
    cases (b.lookup (α := TrainFactor) (.train country)).1 <;> exact List.Subset.refl _
  | headcount h =>
    intro c hc
    obtain ⟨kind, _, rfl⟩ := List.mem_map.mp hc
    apply backs_of_lookup rfl (List.mem_singleton_self _)
    cases (b.lookup (α := StaffFactor) (.headcount h.category)).1 with
    | error f => exact List.Subset.refl _
    | ok p =>
      intro n hn
      obtain ⟨x, hx, rfl⟩ := List.mem_map.mp hn
      exact Payload.mem_numbers_of_kgPerPosition? (Option.mem_toList.mp hx)
  | externalCloud s =>
    simp only [List.forall_mem_singleton]
    apply backs_of_lookup rfl (List.mem_singleton_self _)
    cases (b.lookup (α := SpendFactor) (.externalCloud s.provider s.service)).1 <;>
      exact List.Subset.refl _
  | externalAi u =>
    simp only [List.forall_mem_singleton]
    apply backs_of_lookup rfl (List.mem_singleton_self _)
    cases (b.lookup (α := RequestFactor) (.externalAi u.provider u.useCase)).1 <;>
      exact List.Subset.refl _

/-- What an evaluation tells is backed by the catalog. -/
theorem backs_of_evaluate {b : Basis} {r : ActivityRecord} {computedAt : Instant} {e : Evaluation}
    (h : b.evaluate r computedAt = .ok e) {m : Emission} (hm : m ∈ e.emissions) :
    b.catalog.Backs r.activity m.kind m.snapshot m.factors := by
  obtain ⟨cs, hworks, he⟩ := works_of_evaluate h
  rw [he] at hm
  obtain ⟨c, hc, rfl⟩ := List.mem_map.mp hm
  exact hworks.backs c hc

end Basis

end CarbonLedger
