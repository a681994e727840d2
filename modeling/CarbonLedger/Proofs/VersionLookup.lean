import CarbonLedger.Proofs.SlotQueries

namespace CarbonLedger
namespace Query

def ofSlot (kind : EmissionKind) (k : Classification) (t : Instant) : Query :=
  { ofClassification kind k with asOf := some t }

theorem ofSlot_eq_forSlot (kind : EmissionKind) (k : Classification) (t : Instant) :
    ofSlot kind k t = forSlot kind k (some t) .takeFirst := by
  rw [ofSlot, forSlot, ofClassification_eq]

end Query

namespace Catalog

theorem resolve_ofSlot {c : Catalog} {kind : EmissionKind} {k : Classification} {t : Instant}
    {f : Factor} (h : (c.versions kind k).filter (·.isValidAt t) = [f]) :
    c.resolve (Query.ofSlot kind k t) = some ⟨f, k.size, false, []⟩ := by
  rw [Query.ofSlot_eq_forSlot]
  exact resolve_forSlot h

/-- In a catalog into which all factors came as current, the versions in a slot share out all time
from their first start on, and at each such time the query for the slot finds the one that holds. -/
theorem versions_tile_time {c : Catalog} (hc : c.Grown) {kind : EmissionKind} {k : Classification}
    (hk : c.versions kind k ≠ []) :
    ∃ start, Tiles (c.versions kind k) start ∧
      ∀ t, start ≤ t → ∃ f ∈ c.versions kind k, f.isValidAt t = true ∧
        (∀ g ∈ c.versions kind k, g.isValidAt t = true → g = f) ∧
        c.resolve { Query.ofClassification kind k with asOf := some t } =
          some ⟨f, k.size, false, []⟩ := by
  have hunbroken := hc.unbroken kind k
  obtain ⟨first, r, hvs⟩ := List.exists_cons_of_ne_nil hk
  have htiles : Tiles (c.versions kind k) first.validFrom := by
    rw [hvs] at hunbroken ⊢
    exact hunbroken.tiles
  refine ⟨first.validFrom, htiles, ?_⟩
  intro t ht
  obtain ⟨f, hf, hft⟩ := (htiles.covers t).mpr ht
  have hone := htiles.filter_isValidAt hf hft
  refine ⟨f, hf, hft, ?_, resolve_ofSlot hone⟩
  intro g hg hgt
  have hmem : g ∈ (c.versions kind k).filter (·.isValidAt t) := List.mem_filter.mpr ⟨hg, hgt⟩
  rwa [hone, List.mem_singleton] at hmem

def secondClass (start : Instant) : Draft :=
  ⟨.train, .ofList [("class", .number 2), ("country_code", .text "CH")], .empty, start⟩

/-- A draft that starts before the current version is turned down, and time stays tiled. -/
theorem second_class_versions_tile_time :
    let k := (secondClass default).classification
    let c₁ := ((Call.enter ((secondClass ⟨100, 0⟩).toFactor 7)).write.on empty).2
    let c₂ := ((Call.renew (secondClass ⟨200, 0⟩)).write.on c₁).2
    let c := ((Call.renew (secondClass ⟨150, 0⟩)).write.on c₂).2
    let first := { (secondClass ⟨100, 0⟩).toFactor 7 with validTo := some ⟨200, 0⟩ }
    c.Grown ∧ c.versions .train k = [first, (secondClass ⟨200, 0⟩).toFactor 8] ∧
      (∃ start, Tiles (c.versions .train k) start) ∧
      c.resolve { Query.ofClassification .train k with asOf := some ⟨150, 0⟩ } =
        some ⟨first, 2, false, []⟩ := by
  intro k c₁ c₂ c first
  have hcurrent : (Call.enter ((secondClass ⟨100, 0⟩).toFactor 7)).BringsCurrent := rfl
  have hc : c.Grown := ((Grown.empty.call _ hcurrent).call (.renew _) trivial).call (.renew _)
    trivial
  have hversions : c.versions .train k = [first, (secondClass ⟨200, 0⟩).toFactor 8] := rfl
  have hne : c.versions .train k ≠ [] := by simp [hversions]
  obtain ⟨start, htiles, hfound⟩ := versions_tile_time hc hne
  have hfirst : first ∈ c.versions .train k := hversions ▸ List.mem_cons_self
  have hholds : first.isValidAt ⟨150, 0⟩ = true := by decide
  obtain ⟨f, _, _, hone, hresolve⟩ := hfound _ ((htiles.covers _).mp ⟨first, hfirst, hholds⟩)
  refine ⟨hc, hversions, ⟨start, htiles⟩, ?_⟩
  rw [hresolve, hone first hfirst hholds]
  rfl

end Catalog
end CarbonLedger
