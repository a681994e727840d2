import CarbonLedger.Proofs.RestOfWorld

namespace CarbonLedger
namespace Query

/-- The factors that may be given for a query: of its kind, in the window it asks for, with every
required label, and without a label that contradicts it. The country alone may be the rest of the
world instead of the one asked for, or be left open if it is not required. -/
structure AnsweredBy (q : Query) (f : Factor) : Prop where
  kind : f.kind = q.kind
  current : q.asOf = none → f.validTo = none
  holds : ∀ t, q.asOf = some t → f.validFrom ≤ t ∧ ∀ e, f.validTo = some e → t < e
  required : ∀ d ∈ q.conditions, d.key ≠ "country_code" → d.role = .required →
    ∃ v, f.classification.get? d.key = some v ∧ (v == d.value) = true
  agrees : ∀ d ∈ q.conditions, d.key ≠ "country_code" →
    ∀ v, f.classification.get? d.key = some v → (v == d.value) = true
  country : ∀ d ∈ q.conditions, d.key = "country_code" →
    (∃ v, f.classification.get? d.key = some v ∧
      ((v == d.value) = true ∨ v = .text Country.restOfWorld)) ∨
    d.role = .refining ∧ f.classification.get? d.key = none

def CarriedBy (q : Query) (f : Factor) : Prop :=
  ∀ d ∈ q.conditions, ∃ v, f.classification.get? d.key = some v ∧ (v == d.value) = true

section Answers
variable {q : Query} {d : Condition} {f : Factor}

/-- A factor matches fewer keys than a query has when it does not carry all of them. -/
theorem matched_lt_iff : q.matched f < q.conditions.length ↔ ¬ q.CarriedBy f := by
  have hle : q.matched f ≤ q.conditions.length := List.countP_le_length
  have hall : q.matched f = q.conditions.length ↔ q.CarriedBy f := by
    simp only [matched, List.countP_eq_length, Condition.metBy_iff, CarriedBy]
  rw [← hall]
  omega

/-- Eligible factors answer the query. -/
theorem Eligible.answeredBy (h : q.Eligible f) : q.AnsweredBy f where
  kind := h.kind
  current := h.current
  holds := h.holds
  required d hd _ := h.required d hd
  agrees d hd _ := h.agrees d hd
  country d hd _ := by
    cases hlabel : f.classification.get? d.key with
    | some v => exact Or.inl ⟨v, rfl, Or.inl (h.agrees d hd v hlabel)⟩
    | none =>
      refine Or.inr ⟨?_, rfl⟩
      cases hrole : d.role with
      | refining => rfl
      | required =>
        obtain ⟨v, hv, _⟩ := h.required d hd hrole
        rw [hlabel] at hv
        cases hv

theorem mem_elsewhere_of_ne {c : Condition} (hc : c ∈ q.conditions) (hne : c.key ≠ d.key) :
    c ∈ (q.elsewhere d).conditions :=
  List.mem_append_left _ (List.mem_filter.mpr ⟨hc, by simpa using hne⟩)

theorem mem_elsewhere_self (q : Query) (d : Condition) :
    { d with value := .text Country.restOfWorld } ∈ (q.elsewhere d).conditions :=
  List.mem_append_right _ (List.mem_singleton_self _)

/-- A factor for the rest of the world answers the query for a country. -/
theorem answeredBy_of_elsewhere (hk : q.keys.Nodup) (hd : q.condition? "country_code" = some d)
    (h : (q.elsewhere d).Eligible f) : q.AnsweredBy f := by
  have hkey : d.key = "country_code" := ((condition?_eq_some_iff hk).mp hd).2
  refine ⟨h.kind, h.current, h.holds, ?_, ?_, ?_⟩
  · intro c hc hne
    exact h.required c (mem_elsewhere_of_ne hc (hkey ▸ hne))
  · intro c hc hne
    exact h.agrees c (mem_elsewhere_of_ne hc (hkey ▸ hne))
  · intro c hc hc_key
    obtain rfl : d = c := by
      have hfound := (condition?_eq_some_iff hk).mpr ⟨hc, hc_key⟩
      exact Option.some.inj (hd.symm.trans hfound)
    rcases h.answeredBy.country _ (mem_elsewhere_self q d) hkey with ⟨v, hv, hvalue⟩ | hopen
    · exact Or.inl ⟨v, hv, Or.inr (hvalue.elim Label.beq_text_iff.mp id)⟩
    · exact Or.inr hopen

/-- A factor for the rest of the world does not carry the country that was asked for. -/
theorem not_carriedBy_of_elsewhere (hd : q.condition? "country_code" = some d)
    (hne : d.value.text? ≠ some Country.restOfWorld) (h : (q.elsewhere d).Eligible f) :
    ¬ q.CarriedBy f := by
  intro hcarried
  obtain ⟨v, hv, hvalue⟩ := hcarried d (List.mem_of_find?_eq_some hd)
  have hworld : v = .text Country.restOfWorld :=
    Label.beq_text_iff.mp (h.agrees _ (mem_elsewhere_self q d) v hv)
  rw [hworld] at hvalue
  cases hlabel : d.value with
  | text s =>
    rw [hlabel] at hvalue hne
    cases Label.beq_text_iff.mp hvalue
    exact hne rfl
  | number x =>
    rw [hlabel] at hvalue
    cases hvalue

end Answers

section Found
variable {q : Query} {candidates : List Factor} {r : Resolution}

/-- The fallback flag tells of all best candidates alike whether they lack something. -/
theorem fallback_iff_of_mem_best (hk : q.keys.Nodup) (h : q.resolve candidates = some r)
    {f : Factor} (hf : f ∈ q.best candidates) : r.fallback = false ↔ q.CarriedBy f := by
  obtain ⟨others, hbest, _, hfallback⟩ := best_of_resolve hk h
  have hfirst : r.factor ∈ q.best candidates := hbest ▸ List.mem_cons_self
  rw [hfallback, (alike_of_mem_best hfirst hf).1, decide_eq_false_iff_not, matched_lt_iff, not_not]

end Found

end Query

namespace Catalog

theorem best_ofKind_sublist (q : Query) (c : Catalog) (kind : EmissionKind) :
    (q.best (c.ofKind kind)).Sublist c.factors :=
  List.filter_sublist.trans List.filter_sublist

/-- What a query finds in a catalog is one of its factors and answers the query, and so do all
factors that are told as its rivals. They are other factors, which come after it. It is told as no
fallback exactly if it carries all that was asked for, and then its rivals do so too. -/
theorem resolution_answers_query {q : Query} (hq : q.Built) {c : Catalog} {r : Resolution}
    (h : c.resolve q = some r) :
    ∃ others, (r.factor :: others).Sublist c.factors ∧ r.rivals = others.map (·.id) ∧
      ∀ f ∈ r.factor :: others, q.AnsweredBy f ∧ (r.fallback = false ↔ q.CarriedBy f) := by
  have hk := hq.nodup_keys
  rcases resolve_cases h with hown | ⟨_, d, s, hd, hne, hworld, rfl⟩
  · obtain ⟨others, hbest, hrivals, _⟩ := Query.best_of_resolve hk hown
    refine ⟨others, hbest ▸ best_ofKind_sublist q c q.kind, hrivals, ?_⟩
    intro f hf
    rw [← hbest] at hf
    exact ⟨(Query.mem_best_iff.mp hf).2.1.answeredBy, Query.fallback_iff_of_mem_best hk hown hf⟩
  · have hkw : (q.elsewhere d).keys.Nodup := Query.nodup_keys_add hk _
    obtain ⟨others, hbest, hrivals, _⟩ := Query.best_of_resolve hkw hworld
    refine ⟨others, hbest ▸ best_ofKind_sublist _ c q.kind, hrivals, ?_⟩
    intro f hf
    have hf : f ∈ (q.elsewhere d).best (c.ofKind q.kind) := hbest ▸ hf
    have heligible : (q.elsewhere d).Eligible f := (Query.mem_best_iff.mp hf).2.1
    have hlacks : ¬ q.CarriedBy f := Query.not_carriedBy_of_elsewhere hd hne heligible
    exact ⟨Query.answeredBy_of_elsewhere hk hd heligible, iff_of_false Bool.noConfusion hlacks⟩

/-- Polish trains are answered for the rest of the world, by one of two tied factors. -/
theorem resolution_answers_polish_trains :
    let q := ((Query.all .train).refine "country_code" (.text "PL")).refine "operator" (.text "PKP")
    let c : Catalog :=
      ⟨[Query.swissTrain 1 [("operator", .text "PKP")], worldTrain 3, worldTrain 4]⟩
    q.Built ∧ c.resolve q = some ⟨worldTrain 3, 1, true, [4]⟩ ∧ q.AnsweredBy (worldTrain 3) ∧
      ¬ q.CarriedBy (worldTrain 3) ∧ ∃ f ∈ c.factors, f.id = 4 ∧ q.AnsweredBy f := by
  intro q c
  have hq : q.Built := ((Query.Built.all _).refine _ _).refine _ _
  have hr : c.resolve q = some ⟨worldTrain 3, 1, true, [4]⟩ := rfl
  obtain ⟨others, hsub, hrivals, hall⟩ := resolution_answers_query hq hr
  obtain ⟨f, rfl, hid⟩ := List.map_eq_singleton_iff.mp hrivals.symm
  obtain ⟨hfound, hfallback⟩ := hall (worldTrain 3) List.mem_cons_self
  have hrival := (hall f (List.mem_cons_of_mem _ (List.mem_singleton_self f))).1
  have hmem : f ∈ c.factors := hsub.subset (List.mem_cons_of_mem _ (List.mem_singleton_self f))
  exact ⟨hq, hr, hfound, fun h => Bool.noConfusion (hfallback.mpr h), f, hmem, hid, hrival⟩

end Catalog
end CarbonLedger
