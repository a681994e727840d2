import CarbonLedger.Proofs.ResolutionRank
import CarbonLedger.Proofs.VersionWindows

namespace CarbonLedger

namespace Query

def forSlot (kind : EmissionKind) (k : Classification) (asOf : Option Instant)
    (ties : TiePolicy) : Query :=
  { ofClassification kind k with asOf := asOf, ties := ties }

section Slot
variable {kind : EmissionKind} {k : Classification} {asOf : Option Instant} {ties : TiePolicy}
  {f : Factor}

theorem built_forSlot (kind : EmissionKind) (k : Classification) (asOf : Option Instant)
    (ties : TiePolicy) : (forSlot kind k asOf ties).Built :=
  ((Built.ofClassification kind k).asOf asOf).onTies ties

theorem forSlot_eq : forSlot kind k asOf ties =
    ⟨kind, k.entries.map fun e => ⟨e.1, e.2, .refining⟩, asOf, ties⟩ := by
  rw [forSlot, ofClassification_eq]

theorem length_conditions_forSlot (kind : EmissionKind) (k : Classification)
    (asOf : Option Instant) (ties : TiePolicy) :
    (forSlot kind k asOf ties).conditions.length = k.size := by
  rw [forSlot_eq, List.length_map, KeyMap.size]

theorem metBy_of_inSlot (h : f.inSlot kind k = true) :
    ∀ d ∈ (forSlot kind k asOf ties).conditions, d.metBy f.classification = true := by
  intro d hd
  rw [forSlot_eq, List.mem_map] at hd
  obtain ⟨e, he, rfl⟩ := hd
  exact Condition.metBy_iff.mpr
    (KeyMap.get?_of_beq (Factor.inSlot_iff.mp h).2 (KeyMap.get?_eq_some_iff.mpr he))

/-- A factor of the slot that is in the window is eligible. -/
theorem eligible_of_inSlot (h : f.inSlot kind k = true) (hwindow : f.inWindow asOf = true) :
    (forSlot kind k asOf ties).Eligible f := by
  have hkind : (forSlot kind k asOf ties).kind = kind := by rw [forSlot_eq]
  have hwindow : f.inWindow (forSlot kind k asOf ties).asOf = true := hwindow
  have hlabels : ((forSlot kind k asOf ties).conditions.all
      fun d => d.allows f.classification) = true := by
    rw [List.all_eq_true]
    intro d hd
    obtain ⟨v, hv, hvd⟩ := Condition.metBy_iff.mp (metBy_of_inSlot h d hd)
    rw [Condition.allows, hv]
    exact hvd
  rw [← fits_iff_eligible, fits, hkind, hwindow, hlabels, beq_iff_eq.mpr (Factor.inSlot_iff.mp h).1]
  rfl

theorem matched_of_inSlot (h : f.inSlot kind k = true) :
    (forSlot kind k asOf ties).matched f = k.size := by
  rw [matched, List.countP_eq_length.mpr (metBy_of_inSlot h), length_conditions_forSlot]

theorem matched_le_size : (forSlot kind k asOf ties).matched f ≤ k.size := by
  rw [← length_conditions_forSlot kind k asOf ties]
  exact List.countP_le_length

theorem unmatched_of_inSlot (h : f.inSlot kind k = true) :
    (forSlot kind k asOf ties).unmatched f = 0 := by
  have hsize := matched_add_unmatched (built_forSlot kind k asOf ties).nodup_keys f
  rw [matched_of_inSlot h, KeyMap.size_of_beq (Factor.inSlot_iff.mp h).2] at hsize
  omega

/-- An eligible factor that meets all labels of a slot and has no others is in it. -/
theorem inSlot_of_matched (h : (forSlot kind k asOf ties).Eligible f)
    (hmatched : (forSlot kind k asOf ties).matched f = k.size)
    (hunmatched : (forSlot kind k asOf ties).unmatched f = 0) : f.inSlot kind k = true := by
  have hsize := matched_add_unmatched (built_forSlot kind k asOf ties).nodup_keys f
  rw [hmatched, hunmatched, Nat.add_zero] at hsize
  have hkind : f.kind = kind := h.kind.trans (by rw [forSlot_eq])
  have hall := hmatched
  rw [← length_conditions_forSlot kind k asOf ties, matched,
    List.countP_eq_length] at hall
  refine Factor.inSlot_iff.mpr ⟨hkind, KeyMap.beq_of_get? hsize.symm ?_⟩
  intro e he
  have hmem : (⟨e.1, e.2, .refining⟩ : Condition) ∈ (forSlot kind k asOf ties).conditions := by
    rw [forSlot_eq]
    exact List.mem_map_of_mem he
  exact Condition.metBy_iff.mp (hall _ hmem)

/-- If the window has a factor of the slot, then its factors there are the best candidates. -/
theorem isBest_forSlot_iff {candidates : List Factor} {v : Factor} (hv : v ∈ candidates)
    (hslot : v.inSlot kind k = true) (hwindow : v.inWindow asOf = true) (hf : f ∈ candidates) :
    (forSlot kind k asOf ties).IsBest candidates f ↔
      f.inSlot kind k = true ∧ f.inWindow asOf = true := by
  have hmost : ∀ g ∈ candidates, (forSlot kind k asOf ties).Eligible g →
      (forSlot kind k asOf ties).matched g ≤ (forSlot kind k asOf ties).matched v := by
    intro g _ _
    rw [matched_of_inSlot hslot]
    exact matched_le_size
  rw [isBest_iff_of_bare hv (eligible_of_inSlot hslot hwindow) (unmatched_of_inSlot hslot) hmost hf,
    matched_of_inSlot hslot]
  constructor
  · rintro ⟨heligible, hmatched, hunmatched⟩
    exact ⟨inSlot_of_matched heligible hmatched hunmatched,
      inWindow_iff.mpr ⟨heligible.current, heligible.holds⟩⟩
  · rintro ⟨hf, hfw⟩
    exact ⟨eligible_of_inSlot hf hfw, matched_of_inSlot hf, unmatched_of_inSlot hf⟩

end Slot
end Query

namespace Catalog
variable {c : Catalog} {f : Factor}

section Slot
variable {kind : EmissionKind} {k : Classification} {asOf : Option Instant} {ties : TiePolicy}

/-- The best factors for the labels of a slot are its versions in the window. -/
theorem best_forSlot {v : Factor} (hv : v ∈ c.versions kind k) (hwindow : v.inWindow asOf = true) :
    (Query.forSlot kind k asOf ties).best (c.ofKind kind) =
      (c.versions kind k).filter (·.inWindow asOf) := by
  obtain ⟨hmem, hslot⟩ := List.mem_filter.mp hv
  have hcandidate : v ∈ c.ofKind kind := mem_ofKind.mpr ⟨hmem, (Factor.inSlot_iff.mp hslot).1⟩
  -- The versions of the slot are among the candidates, and the best ones are picked there.
  have hversions : c.versions kind k = (c.ofKind kind).filter fun f => f.inSlot kind k := by
    rw [versions, ofKind, List.filter_filter]
    apply List.filter_congr
    intro f _
    cases h : f.inSlot kind k with
    | false => rfl
    | true => rw [beq_iff_eq.mpr (Factor.inSlot_iff.mp h).1, Bool.and_true]
  rw [Query.best, hversions, List.filter_filter]
  apply List.filter_congr
  intro f hf
  rw [Bool.eq_iff_iff, Bool.and_eq_true, decide_eq_true_iff,
    Query.isBest_forSlot_iff hcandidate hslot hwindow hf, and_comm]

theorem resolve_forSlot (h : (c.versions kind k).filter (·.inWindow asOf) = [f]) :
    c.resolve (Query.forSlot kind k asOf ties) = some ⟨f, k.size, false, []⟩ := by
  have hmem : f ∈ (c.versions kind k).filter (·.inWindow asOf) := h ▸ List.mem_singleton.mpr rfl
  obtain ⟨hf, hfw⟩ := List.mem_filter.mp hmem
  have hslot := (List.mem_filter.mp hf).2
  have hkind : (Query.forSlot kind k asOf ties).kind = kind := by rw [Query.forSlot_eq]
  have hfound : (Query.forSlot kind k asOf ties).resolve (c.ofKind kind) =
      some ⟨f, k.size, false, []⟩ := by
    rw [Query.resolve_of_best (Query.built_forSlot kind k asOf ties).nodup_keys
      ((best_forSlot hf hfw).trans h), Query.matched_of_inSlot hslot,
      Query.length_conditions_forSlot]
    simp
  rw [resolve, Query.resolveAnywhere, hkind, hfound]

end Slot

/-- A current factor is the only current one of its slot. -/
theorem Sound.filter_isCurrent (hc : c.Sound) (hf : f ∈ c.factors) (hcur : f.isCurrent = true)
    (hself : (f.classification == f.classification) = true) :
    (c.versions f.kind f.classification).filter (·.isCurrent) = [f] := by
  have hslot : f.inSlot f.kind f.classification = true := Factor.inSlot_iff.mpr ⟨rfl, hself⟩
  exact (sound_iff.mp hc).2.current_eq_singleton
    (List.mem_filter.mpr ⟨List.mem_filter.mpr ⟨hf, hslot⟩, hcur⟩)

/-- Every current factor is found by its own labels, as the only best one and by all of them,
whatever other factors are in the catalog and whatever is done with ties. -/
theorem current_found_by_own_labels (hc : c.Reached) (hf : f ∈ c.factors)
    (hcur : f.isCurrent = true)
    (hself : ∀ e ∈ f.classification.entries, ∀ x, e.2 = .number x → (x == x) = true)
    (ties : TiePolicy) :
    c.resolve { Query.ofClassification f.kind f.classification with ties := ties } =
      some ⟨f, f.classification.size, false, []⟩ := by
  have hnow : { Query.ofClassification f.kind f.classification with ties := ties } =
      Query.forSlot f.kind f.classification none ties := by
    rw [Query.forSlot, Query.ofClassification_eq]
  rw [hnow]
  apply resolve_forSlot
  exact hc.sound.filter_isCurrent hf hcur (KeyMap.beq_self fun e he => Label.beq_self (hself e he))

def secondClassOf (id : Int64) (operator : String) (validTo : Option Instant) : Factor :=
  ⟨id, .train, .ofList [("class", .number 2), ("country_code", .text "CH"),
    ("operator", .text operator)], .empty, default, validTo⟩

set_option maxRecDepth 1000 in
theorem second_class_found_by_own_labels :
    let f := secondClassOf 4 "SBB" none
    let entered := [anyTrain 9, secondClassOf 3 "BLS" none, secondClassOf 2 "SBB" (some ⟨500, 0⟩),
      Query.swissTrain 1 [("class", .number 2)], f]
    let c₀ := entered.foldl (fun c g => ((Call.enter g).write.on c).2) empty
    let c := ((Call.renew ⟨.train, .empty, .empty, ⟨700, 0⟩⟩).write.on c₀).2
    c.Reached ∧ c.factors.map (fun g => (g.id, g.isCurrent)) =
        [(1, true), (2, false), (3, true), (4, true), (9, false), (10, true)] ∧
      c.resolve { Query.ofClassification f.kind f.classification with ties := .refuse } =
        some ⟨f, 3, false, []⟩ := by
  intro f entered c₀ c
  have hc₀ : c₀.Reached := ((((Reached.empty.call (.enter _) trivial).call (.enter _) trivial).call
    (.enter _) trivial).call (.enter _) trivial).call (.enter _) trivial
  have hids : c₀.factors.map (·.id) = [1, 2, 3, 4, 9] := by rfl
  have hroom : (Call.renew ⟨.train, .empty, .empty, ⟨700, 0⟩⟩).HasRoom c₀ := by
    intro g hg hmax
    have hid : Int64.maxValue ∈ c₀.factors.map (·.id) := hmax ▸ List.mem_map_of_mem hg
    rw [hids] at hid
    exact absurd hid (by decide)
  have hc : c.Reached := hc₀.call _ hroom
  have hf : f ∈ c.factors := by
    have hfactors : c.factors[3]? = some f := by rfl
    exact List.mem_of_getElem? hfactors
  have hself : ∀ e ∈ f.classification.entries, ∀ x, e.2 = .number x → (x == x) = true := by
    have hentries : f.classification.entries =
        [("class", .number 2), ("country_code", .text "CH"), ("operator", .text "SBB")] := by rfl
    rw [hentries, List.forall_mem_cons]
    refine ⟨?_, by simp⟩
    intro x hx
    cases hx
    decide
  exact ⟨hc, rfl, current_found_by_own_labels hc hf rfl hself .refuse⟩

end Catalog
end CarbonLedger
