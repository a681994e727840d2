import CarbonLedger.Proofs.CatalogRuns
import CarbonLedger.Proofs.EvaluationCases
import CarbonLedger.Proofs.ResolutionRank

namespace CarbonLedger
namespace Catalog

/-- Factors that can be in one catalog: no two have one id, and no two are current versions of each
other. -/
structure Loadable (factors : List Factor) : Prop where
  distinctIds : (factors.map (·.id)).Nodup
  oneCurrent : OneCurrent factors

/-- Factors can be loaded when their ids are distinct and no slot has two current ones. -/
theorem loadable_iff {factors : List Factor} :
    Loadable factors ↔ (factors.map (·.id)).Nodup ∧ OneCurrent factors :=
  ⟨fun h => ⟨h.distinctIds, h.oneCurrent⟩, fun h => ⟨h.1, h.2⟩⟩

instance (factors : List Factor) : Decidable (Loadable factors) :=
  decidable_of_iff _ loadable_iff.symm

section Loading
variable {c c' : Catalog} {f : Factor} {l m : List Factor}

theorem Loadable.sublist (h : Loadable m) (hsub : l.Sublist m) : Loadable l :=
  ⟨h.distinctIds.sublist (hsub.map _), h.oneCurrent.sublist hsub⟩

theorem Loadable.perm (h : Loadable l) (hperm : l.Perm m) : Loadable m :=
  ⟨(hperm.map _).nodup_iff.mp h.distinctIds, h.oneCurrent.perm hperm⟩

theorem Sound.loadable (h : c.Sound) : Loadable c.factors := by
  obtain ⟨hascending, hone⟩ := sound_iff.mp h
  refine ⟨?_, hone⟩
  rw [List.Nodup, List.pairwise_map]
  exact hascending.imp Int64.ne_of_lt

/-- A factor is accepted exactly if it can be in one catalog with those that are there. -/
theorem Loadable.accept_iff (h : Loadable c.factors) :
    c.accept f = .ok () ↔ Loadable (f :: c.factors) := by
  rw [accept_iff_compatible]
  constructor
  · rintro ⟨hid, hcompatible⟩
    refine ⟨?_, List.pairwise_cons.mpr ⟨hcompatible, h.oneCurrent⟩⟩
    rw [List.map_cons, List.nodup_cons]
    refine ⟨?_, h.distinctIds⟩
    intro hmem
    obtain ⟨g, hg, heq⟩ := List.mem_map.mp hmem
    exact hid g hg heq
  · rintro ⟨hids, hone⟩
    rw [List.map_cons, List.nodup_cons] at hids
    refine ⟨?_, (List.pairwise_cons.mp hone).1⟩
    intro g hg heq
    exact hids.1 (heq ▸ List.mem_map_of_mem hg)

theorem insert_eq_ok_iff :
    c.insert f = .ok c' ↔ c.accept f = .ok () ∧ c' = ⟨place f c.factors⟩ := by
  rw [insert, Write.outcome, on_enter]
  cases c.accept f with
  | ok u =>
    have hdone : (Except.ok ⟨place f c.factors⟩ : Except CatalogError Catalog) = .ok c' ↔
        c' = ⟨place f c.factors⟩ := by
      rw [Except.ok.injEq, eq_comm]
    exact hdone.trans (and_iff_right rfl).symm
  | error e =>
    constructor
    · intro h
      cases h
    · rintro ⟨h, _⟩
      cases h

/-- What loading leaves is sound, and has the factors of the list on top of those of before. -/
theorem of_foldlM_insert (hc : c.Sound) (h : l.foldlM insert c = .ok c') :
    c'.Sound ∧ c'.factors.Perm (l ++ c.factors) := by
  induction l generalizing c with
  | nil =>
    cases h
    exact ⟨hc, List.Perm.refl _⟩
  | cons f r ih =>
    rw [List.foldlM_cons] at h
    obtain ⟨d, hinsert, hrest⟩ := bind_eq_ok.mp h
    obtain ⟨haccept, rfl⟩ := insert_eq_ok_iff.mp hinsert
    obtain ⟨hsound, hperm⟩ := ih (sound_place hc haccept) hrest
    refine ⟨hsound, hperm.trans ?_⟩
    exact ((place_perm f c.factors).append_left r).trans List.perm_middle

theorem exists_foldlM_insert (hc : c.Sound) (h : Loadable (l ++ c.factors)) :
    ∃ c', l.foldlM insert c = .ok c' := by
  induction l generalizing c with
  | nil => exact ⟨c, rfl⟩
  | cons f r ih =>
    -- The factor can be with those of before, and with it there the rest can still come in.
    have hhere : Loadable (f :: c.factors) :=
      h.sublist ((List.sublist_append_right r c.factors).cons_cons f)
    have haccept := hc.loadable.accept_iff.mpr hhere
    have hrest : Loadable (r ++ place f c.factors) := by
      apply h.perm
      exact (((place_perm f c.factors).append_left r).trans List.perm_middle).symm
    obtain ⟨c', hc'⟩ := ih (c := ⟨place f c.factors⟩) (sound_place hc haccept) hrest
    refine ⟨c', ?_⟩
    rw [List.foldlM_cons, insert_eq_ok_iff.mpr ⟨haccept, rfl⟩]
    exact hc'

theorem sound_empty : empty.Sound := Reached.empty.sound

/-- Sound catalogs of the same factors are one. -/
theorem Sound.eq_of_perm (hc : c.Sound) (hc' : c'.Sound) (h : c.factors.Perm c'.factors) :
    c = c' := by
  -- Where ids ascend, two factors that are in either order are one.
  have hasymm (f g : Factor) (_ : f ∈ c.factors) (_ : g ∈ c'.factors) (hfg : f.id < g.id)
      (hgf : g.id < f.id) : f = g :=
    absurd (Int64.lt_trans hfg hgf) Int64.lt_irrefl
  have hfactors := List.Perm.eq_of_pairwise hasymm hc.ascending hc'.ascending h
  cases c
  cases c'
  cases hfactors
  rfl

/-- Loading gives the sound catalog of the factors, if there is one. -/
theorem ofList_eq_ok_iff : ofList l = .ok c ↔ c.Sound ∧ c.factors.Perm l := by
  constructor
  · intro h
    have hloaded := of_foldlM_insert sound_empty h
    rwa [empty, List.append_nil] at hloaded
  · rintro ⟨hsound, hperm⟩
    have hloadable : Loadable (l ++ empty.factors) := by
      rw [empty, List.append_nil]
      exact hsound.loadable.perm hperm
    obtain ⟨c', hc'⟩ := exists_foldlM_insert sound_empty hloadable
    obtain ⟨hsound', hperm'⟩ := of_foldlM_insert sound_empty hc'
    rw [empty, List.append_nil] at hperm'
    rw [hsound.eq_of_perm hsound' (hperm.trans hperm'.symm)]
    exact hc'

/-- Loading succeeds for the lists that are loadable, and for no others. -/
theorem exists_ofList_iff : (∃ c, ofList l = .ok c) ↔ Loadable l := by
  constructor
  · rintro ⟨c, hc⟩
    obtain ⟨hsound, hperm⟩ := ofList_eq_ok_iff.mp hc
    exact hsound.loadable.perm hperm
  · intro h
    apply exists_foldlM_insert sound_empty
    rwa [empty, List.append_nil]

end Loading

/-- A list of factors and the same list in another order are loaded both or neither, and they are
exactly if no two of the factors have one id and no two are current versions of each other. Both
give the same factors in the order of their ids, so all that is looked up or evaluated is the same.
-/
theorem loading_in_any_order {l m : List Factor} (h : l.Perm m) :
    ((∃ c, ofList l = .ok c) ↔ Loadable l) ∧
    ((∃ c, ofList m = .ok c) ↔ ∃ c, ofList l = .ok c) ∧
    ∀ c c', ofList l = .ok c → ofList m = .ok c' →
      c.factors.Perm l ∧ c.factors.Pairwise (fun f g => f.id < g.id) ∧ c'.factors = c.factors ∧
      (∀ q, c'.resolve q = c.resolve q) ∧
      ∀ (directory : Directory) (settings : Settings) (asOf : Option Instant) (r : ActivityRecord)
        (computedAt : Instant), Basis.evaluate ⟨c', directory, settings, asOf⟩ r computedAt =
          Basis.evaluate ⟨c, directory, settings, asOf⟩ r computedAt := by
  have hsame (c : Catalog) : ofList m = .ok c ↔ ofList l = .ok c := by
    rw [ofList_eq_ok_iff, ofList_eq_ok_iff]
    apply and_congr_right
    intro _
    exact ⟨fun hm => hm.trans h.symm, fun hl => hl.trans h⟩
  refine ⟨exists_ofList_iff, exists_congr hsame, ?_⟩
  intro c c' hl hm
  obtain ⟨hsound, hperm⟩ := ofList_eq_ok_iff.mp hl
  obtain rfl : c = c' := Except.ok.inj (hl.symm.trans ((hsame c').mp hm))
  exact ⟨hperm, hsound.ascending, rfl, fun _ => rfl, fun _ _ _ _ _ => rfl⟩

/-- Three train factors, one of them ended, loaded both ways round. -/
theorem trains_in_two_orders :
    let ended : Factor := { anyTrain 2 with validTo := some ⟨500, 0⟩ }
    let l := [anyTrain 9, Query.swissTrain 4 [], ended]
    l.Perm l.reverse ∧ Loadable l ∧ ∃ c, ofList l = .ok c ∧ ofList l.reverse = .ok c ∧
      c.factors = [ended, Query.swissTrain 4 [], anyTrain 9] ∧ c.factors.Perm l := by
  intro ended l
  have hperm : l.Perm l.reverse := (List.reverse_perm l).symm
  have hloadable : Loadable l := by decide
  obtain ⟨hiff, hboth, hsame⟩ := loading_in_any_order hperm
  obtain ⟨c, hc⟩ := hiff.mpr hloadable
  obtain ⟨c', hc'⟩ := hboth.mpr ⟨c, hc⟩
  obtain ⟨hrows, _, hfactors, _⟩ := hsame c c' hc hc'
  obtain rfl : c' = c := by
    cases c
    cases c'
    exact congrArg Catalog.mk hfactors
  refine ⟨hperm, hloadable, c', hc, hc', ?_, hrows⟩
  have hdone : ofList l = .ok ⟨[ended, Query.swissTrain 4 [], anyTrain 9]⟩ := rfl
  rw [hdone, Except.ok.injEq] at hc
  rw [← hc]

end Catalog
end CarbonLedger
