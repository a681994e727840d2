import CarbonLedger.Factor.Resolution
import Mathlib.Data.List.Nodup

namespace CarbonLedger
namespace Query

inductive Built : Query → Prop
  | all (kind : EmissionKind) : Built (all kind)
  | require {q : Query} (key : String) (value : Label) : Built q → Built (q.require key value)
  | refine {q : Query} (key : String) (value : Label) : Built q → Built (q.refine key value)
  | asOf {q : Query} (t : Option Instant) : Built q → Built { q with asOf := t }
  | onTies {q : Query} (p : TiePolicy) : Built q → Built { q with ties := p }
  | restOfWorld {q w : Query} : Built q → q.restOfWorld? = some w → Built w

namespace Built

theorem refineText {q : Query} (h : q.Built) (key : String) (value : Option String) :
    (q.refineText key value).Built := by
  rw [Query.refineText]
  split
  · exact h.refine _ _
  · exact h

theorem ofClassification (kind : EmissionKind) (c : Classification) :
    (Query.ofClassification kind c).Built := by
  have h (entries : List (String × Label)) (q : Query) (hq : q.Built) :
      (entries.foldl (fun q e => q.refine e.1 e.2) q).Built := by
    induction entries generalizing q with
    | nil => exact hq
    | cons e r ih => exact ih _ (hq.refine _ _)
  exact h _ _ (.all kind)

theorem equipment (submodule equipmentClass : String) (subClass : Option String) :
    (Query.equipment submodule equipmentClass subClass).Built :=
  (((Built.all _).require _ _).require _ _).refineText _ _

theorem electricityMix (countryCode : String) : (Query.electricityMix countryCode).Built :=
  (Built.all _).require _ _

theorem flight (haul : HaulCategory) : (Query.flight haul).Built :=
  ((Built.all _).require _ _).onTies _

theorem train (countryCode : String) : (Query.train countryCode).Built :=
  (Built.all _).require _ _

theorem headcount (category : Option String) : (Query.headcount category).Built :=
  (Built.all _).refineText _ _

theorem externalCloud (provider : String) (service : Option String) :
    (Query.externalCloud provider service).Built :=
  ((Built.all _).require _ _).refineText _ _

theorem externalAi (provider : String) (useCase : Option String) :
    (Query.externalAi provider useCase).Built :=
  ((Built.all _).require _ _).refineText _ _

end Built

def keys (q : Query) : List String := q.conditions.map (·.key)

theorem nodup_keys_add {q : Query} (h : q.keys.Nodup) (c : Condition) : (q.add c).keys.Nodup := by
  rw [keys, add, List.map_append, List.nodup_append]
  refine ⟨h.sublist (List.filter_sublist.map _), List.pairwise_singleton _ _, ?_⟩
  intro j hj k hk
  obtain ⟨d, hd, rfl⟩ := List.mem_map.1 hj
  rw [List.mem_singleton.1 hk]
  simpa using (List.mem_filter.1 hd).2

theorem nodup_keys_restOfWorld? {q w : Query} (h : q.keys.Nodup) (hw : q.restOfWorld? = some w) :
    w.keys.Nodup := by
  rw [restOfWorld?] at hw
  split at hw
  · cases hw
  · split at hw
    · cases hw
    · cases hw
      exact nodup_keys_add h _

/-- Built queries ask for a key at most once. -/
theorem Built.nodup_keys {q : Query} (h : q.Built) : q.keys.Nodup := by
  induction h with
  | all kind => exact List.nodup_nil
  | require key value _ ih => exact nodup_keys_add ih _
  | refine key value _ ih => exact nodup_keys_add ih _
  | asOf t _ ih => exact ih
  | onTies p _ ih => exact ih
  | restOfWorld _ hw ih => exact nodup_keys_restOfWorld? ih hw

/-- No key is asked for twice, so the condition on a key is the only one there is. -/
theorem condition?_eq_some_iff {q : Query} (hk : q.keys.Nodup) {key : String} {d : Condition} :
    q.condition? key = some d ↔ d ∈ q.conditions ∧ d.key = key := by
  constructor
  · intro h
    exact ⟨List.mem_of_find?_eq_some h, by simpa using List.find?_some h⟩
  · rintro ⟨hd, rfl⟩
    cases hfind : q.condition? d.key with
    | none =>
      have hnot := List.find?_eq_none.mp hfind d hd
      simp at hnot
    | some c =>
      have hkey : c.key = d.key := by simpa using List.find?_some hfind
      rw [List.inj_on_of_nodup_map hk (List.mem_of_find?_eq_some hfind) hd hkey]

/-- Conditions on new keys are put behind those that are there, in their order. -/
theorem foldl_refine {entries : List (String × Label)} {q : Query}
    (hnodup : (entries.map (·.1)).Nodup) (hnew : ∀ e ∈ entries, e.1 ∉ q.keys) :
    entries.foldl (fun q e => q.refine e.1 e.2) q =
      { q with conditions := q.conditions ++ entries.map fun e => ⟨e.1, e.2, .refining⟩ } := by
  induction entries generalizing q with
  | nil => simp
  | cons e r ih =>
    obtain ⟨he, hr⟩ := List.nodup_cons.mp hnodup
    obtain ⟨hkey, hrest⟩ := List.forall_mem_cons.mp hnew
    have hkept : q.conditions.filter (fun d => d.key != e.1) = q.conditions := by
      apply List.filter_eq_self.mpr
      intro d hd
      have hne : d.key ≠ e.1 := fun h => hkey (h ▸ List.mem_map_of_mem hd)
      simpa using hne
    have hadd : q.refine e.1 e.2 =
        { q with conditions := q.conditions ++ [⟨e.1, e.2, .refining⟩] } := by
      rw [refine, add, hkept]
    have hfresh : ∀ f ∈ r, f.1 ∉ (q.refine e.1 e.2).keys := by
      intro f hf hmem
      rw [hadd, keys, List.map_append, List.mem_append] at hmem
      rcases hmem with hmem | hmem
      · exact hrest f hf hmem
      · rw [List.map_singleton, List.mem_singleton] at hmem
        have hsame : f.1 = e.1 := hmem
        have hagain : f.1 ∈ r.map (·.1) := List.mem_map_of_mem hf
        rw [hsame] at hagain
        exact he hagain
    rw [List.foldl_cons, ih hr hfresh, hadd]
    simp

theorem ofClassification_eq (kind : EmissionKind) (c : Classification) :
    ofClassification kind c =
      ⟨kind, c.entries.map fun e => ⟨e.1, e.2, .refining⟩, none, .takeFirst⟩ := by
  have hnew : ∀ e ∈ c.entries, e.1 ∉ (all kind).keys := fun _ _ => List.not_mem_nil
  rw [ofClassification, foldl_refine c.nodup_keys hnew]
  rfl

def meets (q : Query) (e : String × Label) : Bool :=
  q.conditions.any fun d => d.key == e.1 && e.2 == d.value

def unmatched (q : Query) (f : Factor) : Nat :=
  f.classification.entries.countP fun e => !q.meets e

theorem meets_iff {q : Query} {e : String × Label} :
    q.meets e = true ↔ ∃ d ∈ q.conditions, d.key = e.1 ∧ (e.2 == d.value) = true := by
  simp [meets]

/-- Conditions that are met and labels that are met are the same keys. -/
theorem matched_eq_countP_meets {q : Query} (h : q.keys.Nodup) (f : Factor) :
    q.matched f = f.classification.entries.countP q.meets := by
  have hc : ((q.conditions.filter (·.metBy f.classification)).map (·.key)).Nodup :=
    h.sublist (List.filter_sublist.map _)
  have he : ((f.classification.entries.filter q.meets).map (·.1)).Nodup :=
    f.classification.nodup_keys.sublist (List.filter_sublist.map _)
  have hsame : ((q.conditions.filter (·.metBy f.classification)).map (·.key)).Perm
      ((f.classification.entries.filter q.meets).map (·.1)) := by
    rw [List.perm_ext_iff_of_nodup hc he]
    intro k
    simp only [List.mem_map, List.mem_filter, Condition.metBy_iff, meets_iff,
      KeyMap.get?_eq_some_iff]
    constructor
    · rintro ⟨d, ⟨hd, v, hv, hvd⟩, rfl⟩
      exact ⟨(d.key, v), ⟨hv, d, hd, rfl, hvd⟩, rfl⟩
    · rintro ⟨⟨k, v⟩, ⟨hv, d, hd, hk, hvd⟩, rfl⟩
      exact ⟨d, ⟨hd, v, hk ▸ hv, hvd⟩, hk⟩
  rw [matched, List.countP_eq_length_filter, List.countP_eq_length_filter]
  simpa only [List.length_map] using hsame.length_eq

/-- A label is met by the query or not, so no more conditions are met than there are labels. -/
theorem matched_add_unmatched {q : Query} (h : q.keys.Nodup) (f : Factor) :
    q.matched f + q.unmatched f = f.classification.size := by
  rw [matched_eq_countP_meets h, unmatched, KeyMap.size,
    List.length_eq_countP_add_countP q.meets]
  simp

end Query
end CarbonLedger
