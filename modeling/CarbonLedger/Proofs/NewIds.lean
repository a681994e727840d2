import CarbonLedger.Proofs.CatalogRuns

/-! The ids of replacements: each is the one after the greatest, if that is a 64-bit number. -/

namespace CarbonLedger
namespace Catalog

def ids (c : Catalog) : List Int64 := c.factors.map (·.id)

/-- The greatest id as an integer, or 0 if there are no factors. -/
def greatestId (c : Catalog) : Int := (c.ids.map Int64.toInt).max?.getD 0

section Ids
variable {c : Catalog}

theorem toInt_maxId (c : Catalog) : c.maxId.toInt = c.greatestId := by
  by_cases hnil : c.factors = []
  · rw [maxId, greatestId, ids, hnil]
    rfl
  · obtain ⟨f, hf, hid⟩ := exists_id_eq_maxId hnil
    have hmax : (c.ids.map Int64.toInt).max? = some c.maxId.toInt := by
      rw [List.max?_eq_some_iff, ids, List.map_map, List.forall_mem_map, ← hid]
      refine ⟨List.mem_map_of_mem hf, ?_⟩
      exact fun g hg => Int64.le_iff_toInt_le.mp (hid ▸ le_maxId g hg)
    rw [greatestId, hmax, Option.getD_some]

theorem nextId?_eq_none_iff_mem_ids : c.nextId? = none ↔ Int64.maxValue ∈ c.ids := by
  rw [nextId?_eq_none_iff, ids, List.mem_map]

/-- A fresh id is one more than the greatest, with no wrapping around. -/
theorem toInt_of_nextId? {id : Int64} (h : c.nextId? = some id) :
    id.toInt = c.greatestId + 1 := by
  obtain ⟨hroom, rfl⟩ := nextId?_eq_some h
  rw [toInt_succ_of_ne_maxValue hroom, toInt_maxId]

/-- A replacement appends its new id and keeps the others. -/
theorem ids_renewed (c : Catalog) (d : Draft) (id : Int64) :
    (c.renewed d id).ids = c.ids ++ [id] := by
  simp [ids, renewed, Draft.toFactor]

/-- A replacement overflows exactly if some factor has the greatest 64-bit number for its id. -/
theorem renew_overflows_iff (c : Catalog) (d : Draft) :
    (renew d).on c = (.error .overflow, c) ↔ Int64.maxValue ∈ c.ids := by
  rw [← nextId?_eq_none_iff_mem_ids]
  rcases renew_cases d c with ⟨hid, h⟩ | ⟨id, hid, ⟨g, _, _, _, h⟩ | ⟨_, h⟩⟩
  · exact iff_of_true h hid
  · refine iff_of_false ?_ ?_ <;> simp [h, hid]
  · refine iff_of_false ?_ ?_ <;> simp [h, hid]

theorem renew_eq_ok {after : Catalog} {d : Draft} {s : Supersession}
    (h : (renew d).on c = (.ok s, after)) :
    c.nextId? = some s.inserted.id ∧ after = c.renewed d s.inserted.id := by
  rcases renew_cases d c with ⟨_, hon⟩ | ⟨id, hid, ⟨g, _, _, _, hon⟩ | ⟨_, hon⟩⟩
  · rw [hon] at h
    cases h
  · rw [hon] at h
    cases h
  · rw [hon] at h
    cases h
    exact ⟨hid, rfl⟩

/-- No call removes an id. -/
theorem ids_subset_call (x : Call) (c : Catalog) : c.ids ⊆ (x.write.on c).2.ids := by
  rcases x.on_cases c with ⟨e, hon⟩ | ⟨f, rfl, _, hon⟩ | ⟨d, id, rfl, _, _, hon⟩
  · rw [hon]
    exact List.Subset.refl _
  · rw [hon]
    exact List.map_subset _ fun g hg => mem_place.mpr (Or.inr hg)
  · rw [hon, ids_renewed]
    exact List.subset_append_left _ _

end Ids

/-- Ids never leave a catalog. -/
theorem ids_subset_afterCalls (calls more : List Call) :
    (afterCalls calls).ids ⊆ (afterCalls (calls ++ more)).ids := by
  rw [afterCalls, afterCalls, List.foldl_append]
  generalize calls.foldl _ empty = c
  induction more generalizing c with
  | nil => exact List.Subset.refl _
  | cons x more ih => exact List.Subset.trans (ids_subset_call x c) (ih _)

/-- After any calls, a replacement that comes in does so under the id after the greatest, and all
ids ascend before it and after it. But once the greatest 64-bit number is an id, no replacement
comes in any more: whatever the draft and whatever calls are made between, the sum overflows. -/
theorem new_ids_ascend_or_overflow (calls : List Call) (d : Draft) :
    let c := afterCalls calls
    c.ids.Pairwise (· < ·) ∧
    (∀ s after, (renew d).on c = (.ok s, after) →
      after.ids = c.ids ++ [s.inserted.id] ∧ s.inserted.id.toInt = c.greatestId + 1 ∧
        (∀ id ∈ c.ids, id < s.inserted.id) ∧ after.ids.Pairwise (· < ·)) ∧
    ((renew d).on c = (.error .overflow, c) ↔ Int64.maxValue ∈ c.ids) ∧
    (Int64.maxValue ∈ c.ids → ∀ (more : List Call) (later : Draft),
      ((renew later).on (afterCalls (calls ++ more))).1 = .error .overflow) := by
  intro c
  have hsound := sound_afterCalls calls
  refine ⟨List.pairwise_map.mpr hsound.ascending, ?_, renew_overflows_iff c d, ?_⟩
  · intro s after h
    obtain ⟨hid, rfl⟩ := renew_eq_ok h
    exact ⟨ids_renewed c d _, toInt_of_nextId? hid, List.forall_mem_map.mpr (lt_of_nextId? hid),
      List.pairwise_map.mpr (ascending_renewed hsound.ascending hid)⟩
  · intro hfull more later
    have hlater := (renew_overflows_iff _ later).mpr (ids_subset_afterCalls calls more hfull)
    rw [hlater]

theorem new_id_behind_any_train :
    let calls := [Call.enter (anyTrain (-3))]
    let d : Draft := ⟨.train, .empty, .empty, ⟨1, 0⟩⟩
    let s : Supersession := ⟨[-3], d.toFactor (-2)⟩
    let after : Catalog := ⟨[{ anyTrain (-3) with validTo := some ⟨1, 0⟩ }, d.toFactor (-2)]⟩
    (renew d).on (afterCalls calls) = (.ok s, after) ∧ after.ids.Pairwise (· < ·) := by
  intro calls d s after
  have hdone : (renew d).on (afterCalls calls) = (.ok s, after) := by rfl
  exact ⟨hdone, ((new_ids_ascend_or_overflow calls d).2.1 s after hdone).2.2.2⟩

/-- Between the least and the greatest number all ids are free and no flight is in the way, and
still a flight does not come in. -/
theorem no_id_behind_greatest :
    let calls := [Call.enter (anyTrain Int64.minValue),
      Call.enter ⟨Int64.maxValue, .equipment, .empty, .empty, default, none⟩]
    let c := afterCalls calls
    let d : Draft := ⟨.flight, .empty, .empty, ⟨1, 0⟩⟩
    c.ids = [Int64.minValue, Int64.maxValue] ∧ c.acceptDraft d = .ok () ∧
      (renew d).on c = (.error .overflow, c) ∧ ¬ ∃ s after, (renew d).on c = (.ok s, after) := by
  intro calls c d
  have hids : c.ids = [Int64.minValue, Int64.maxValue] := by rfl
  have hoverflows : (renew d).on c = (.error .overflow, c) := by
    rw [renew_overflows_iff, hids]
    decide
  refine ⟨hids, by rfl, hoverflows, ?_⟩
  rintro ⟨s, after, hdone⟩
  rw [hoverflows] at hdone
  cases hdone

end Catalog
end CarbonLedger
