import CarbonLedger.Proofs.FoundFactors
import CarbonLedger.Proofs.SubjectReports

namespace CarbonLedger
namespace Query

instance (q : Query) (candidates : List Factor) : Decidable (q.RefusesTie candidates) :=
  inferInstanceAs (Decidable (_ ∧ _))

theorem kind_refineText (q : Query) (key : String) (value : Option String) :
    (q.refineText key value).kind = q.kind := by
  rw [refineText]
  split <;> rfl

/-- The tie that a query breaks: it takes the least id of its best candidates, and the others follow
in ascending order. -/
def tie? (q : Query) (candidates : List Factor) : Option Ambiguity :=
  match q.ties, ((q.best candidates).map (·.id)).mergeSort with
  | .takeFirst, chosen :: other :: others => some ⟨q.kind, chosen, other :: others⟩
  | _, _ => none

section Ties
variable {q : Query} {candidates : List Factor} {a : Ambiguity}

theorem tie?_of_refuse (h : q.ties = .refuse) : q.tie? candidates = none := by
  rw [tie?, h]

/-- Ids that ascend among the candidates ascend among the best of them. -/
theorem sorted_ids_best (h : candidates.Pairwise fun f g => f.id < g.id) :
    ((q.best candidates).map (·.id)).mergeSort = (q.best candidates).map (·.id) := by
  apply List.mergeSort_of_pairwise
  rw [List.pairwise_map]
  exact (h.filter _).imp fun hlt => decide_eq_true (Int64.le_of_lt hlt)

/-- A broken tie has losers, and the winner has the least id of all. -/
theorem tie?_eq_some (h : candidates.Pairwise fun f g => f.id < g.id)
    (ha : q.tie? candidates = some a) :
    a.kind = q.kind ∧ q.ties = .takeFirst ∧ a.others ≠ [] ∧
      (a.chosen :: a.others).Pairwise (· < ·) := by
  have hascend : ((q.best candidates).map (·.id)).Pairwise (· < ·) :=
    List.pairwise_map.mpr (h.filter _)
  rw [tie?, sorted_ids_best h] at ha
  split at ha
  · next chosen other others hties hids =>
    cases ha
    rw [hids] at hascend
    exact ⟨rfl, hties, List.cons_ne_nil _ _, hascend⟩
  · cases ha

/-- What a query finds tells of the tie that it breaks. -/
theorem ambiguity?_resolve (hk : q.keys.Nodup) (h : candidates.Pairwise fun f g => f.id < g.id) :
    (q.resolve candidates).bind Basis.ambiguity? = q.tie? candidates := by
  rw [resolve_eq_best hk, tie?, sorted_ids_best h]
  cases hbest : q.best candidates with
  | nil => cases q.ties <;> rfl
  | cons f others =>
    have hkind : f.kind = q.kind := (mem_best_iff.mp (hbest ▸ List.mem_cons_self)).2.1.kind
    cases others with
    | nil => cases q.ties <;> rfl
    | cons g r => cases q.ties <;> simp [Basis.ambiguity?, hkind]

end Ties

end Query

namespace Catalog

/-- The query whose candidates decide what is found: the query itself if it finds a factor, or else
that for the rest of the world if there is one. -/
def deciding (c : Catalog) (q : Query) : Query :=
  if (∃ f ∈ c.ofKind q.kind, q.Eligible f) ∧ ¬ q.RefusesTie (c.ofKind q.kind) then q
  else q.restOfWorld?.getD q

section Deciding
variable {c : Catalog} {q : Query}

/-- The deciding query differs in the country alone. -/
theorem deciding_eq (c : Catalog) (q : Query) :
    c.deciding q = q ∨ ∃ d, c.deciding q = q.elsewhere d := by
  rw [deciding]
  split
  · exact Or.inl rfl
  · cases hworld : q.restOfWorld? with
    | none => exact Or.inl rfl
    | some w =>
      obtain ⟨d, _, _, rfl⟩ := Query.elsewhere_of_restOfWorld? hworld
      exact Or.inr ⟨d, rfl⟩

theorem ties_deciding (c : Catalog) (q : Query) : (c.deciding q).ties = q.ties := by
  rcases deciding_eq c q with h | ⟨d, h⟩
  · rw [h]
  · rw [h, Query.elsewhere, Query.add]

theorem kind_deciding (c : Catalog) (q : Query) : (c.deciding q).kind = q.kind := by
  rcases deciding_eq c q with h | ⟨d, h⟩
  · rw [h]
  · rw [h, Query.elsewhere, Query.add]

/-- The tie that a resolution tells of is the one its deciding query broke. -/
theorem ambiguity?_resolve (hq : q.Built) (h : c.factors.Pairwise fun f g => f.id < g.id) :
    (c.resolve q).bind Basis.ambiguity? = (c.deciding q).tie? (c.ofKind q.kind) := by
  have hk := hq.nodup_keys
  have hids : (c.ofKind q.kind).Pairwise fun f g => f.id < g.id := h.filter _
  rw [deciding]
  split
  · next hown =>
    have hsome := Query.isSome_resolve hk hown.1 hown.2
    rw [resolve, Query.resolveAnywhere_of_isSome hsome, Query.ambiguity?_resolve hk hids]
  · next hnothing =>
    have hnone : q.resolve (c.ofKind q.kind) = none := by
      rcases Decidable.not_and_iff_not_or_not.mp hnothing with hnot | htie
      · exact Query.resolve_of_not_eligible hk fun f hf he => hnot ⟨f, hf, he⟩
      · exact Query.resolve_of_refusesTie hk (Decidable.not_not.mp htie)
    rw [resolve, Query.resolveAnywhere_of_eq_none hnone]
    cases hworld : q.restOfWorld? with
    | none =>
      -- Nothing else is asked, and the query itself broke no tie since it found nothing.
      have hown := Query.ambiguity?_resolve hk hids
      rw [hnone] at hown
      exact hown
    | some w =>
      have hw : w.keys.Nodup := (hq.restOfWorld hworld).nodup_keys
      have htold : (((w.resolve (c.ofKind q.kind)).map Resolution.asFallback).bind
          Basis.ambiguity?) = (w.resolve (c.ofKind q.kind)).bind Basis.ambiguity? := by
        cases w.resolve (c.ofKind q.kind) <;> rfl
      exact htold.trans (Query.ambiguity?_resolve hw hids)

end Deciding

end Catalog

namespace Basis

def tie? (b : Basis) (q : Query) : Option Ambiguity :=
  (b.catalog.deciding (b.adjust q)).tie? (b.catalog.ofKind q.kind)

def tripLookups (b : Basis) (t : Trip) : List Query :=
  match b.directory.find? t.origin, b.directory.find? t.destination with
  | some origin, some destination =>
    match TransportMode.ofText t.mode with
    | .ok .plane =>
      match TransportMode.plane.distance origin destination with
      | .ok km => [.flight (.ofKm km)]
      | .error _ => []
    | .ok .train => [.train (Country.ofTrainTrip b.settings.domesticCountry origin.country?
      destination.country?)]
    | .error _ => []
  | _, _ => []

def lookups (b : Basis) : Activity → List Query
  | .equipment u => [.equipment u.submodule u.equipmentClass u.subClass,
    .electricityMix (b.gridCountry u)]
  | .travel t => b.tripLookups t
  | .headcount h => [.headcount h.category]
  | .externalCloud s => [.externalCloud s.provider s.service]
  | .externalAi u => [.externalAi u.provider u.useCase]

def ties (b : Basis) (a : Activity) : List Ambiguity := (b.lookups a).filterMap b.tie?

section Lookups
variable {b : Basis} {q : Query}

theorem filterMap_single : [q].filterMap b.tie? = (b.tie? q).toList := by
  rw [List.filterMap_eq_flatMap_toList, List.flatMap_singleton]

theorem mem_tripLookups {t : Trip} (h : q ∈ b.tripLookups t) :
    (∃ haul, q = .flight haul) ∨ ∃ country, q = .train country := by
  rw [tripLookups] at h
  split at h
  · split at h
    · split at h
      · exact Or.inl ⟨_, List.mem_singleton.mp h⟩
      · cases h
    · exact Or.inr ⟨_, List.mem_singleton.mp h⟩
    · cases h
  · cases h

/-- The queries for flights are the ones that refuse ties by themselves. -/
theorem refuses_of_mem_lookups {a : Activity} (h : q ∈ b.lookups a) (hkind : q.kind = .flight) :
    q.ties = .refuse := by
  have hplain {p : Query} {key : String} {value : Option String}
      (hq : q = p.refineText key value) : p.kind = .flight := by
    rwa [hq, Query.kind_refineText] at hkind
  cases a with
  | equipment u =>
    rcases List.mem_pair.mp h with hq | rfl
    · cases hplain hq
    · cases hkind
  | travel t =>
    rcases mem_tripLookups h with ⟨haul, rfl⟩ | ⟨country, rfl⟩
    · rfl
    · cases hkind
  | headcount s => cases hplain (List.mem_singleton.mp h)
  | externalCloud s => cases hplain (List.mem_singleton.mp h)
  | externalAi u => cases hplain (List.mem_singleton.mp h)

theorem ambiguities_of_flight {t : Trip} {origin destination : Location} {o : Outcome}
    (ho : b.flight t origin destination = .ok o) :
    ∃ km, TransportMode.plane.distance origin destination = .ok km ∧
      o.ambiguities = (b.lookup (α := FlightFactor) (.flight (.ofKm km))).2.toList := by
  obtain ⟨km, hkm, ho⟩ := bind_eq_ok.mp ho
  obtain ⟨c, _, ho⟩ := bind_eq_ok.mp ho
  cases ho
  exact ⟨km, mapError_eq_ok.mp hkm, rfl⟩

theorem ambiguities_of_train {t : Trip} {origin destination : Location} {o : Outcome}
    (ho : b.train t origin destination = .ok o) :
    o.ambiguities = (b.lookup (α := TrainFactor) (.train (Country.ofTrainTrip
      b.settings.domesticCountry origin.country? destination.country?))).2.toList := by
  obtain ⟨c, _, ho⟩ := bind_eq_ok.mp ho
  cases ho
  rfl

/-- Settings that refuse ties leave none to tell. -/
theorem ties_of_refuse (h : b.settings.ties = .refuse) (a : Activity) : b.ties a = [] := by
  rw [ties, List.filterMap_eq_nil_iff]
  intro q _
  apply Query.tie?_of_refuse
  rw [Catalog.ties_deciding, adjust]
  exact if_pos h

section Ascending
variable (h : b.catalog.factors.Pairwise fun f g => f.id < g.id)
include h

/-- A lookup tells of the tie of its query, also if the factor cannot be used. -/
theorem lookup_tie {α : Type} [Payload α] (hq : q.Built) :
    (b.lookup (α := α) q).2 = b.tie? q := by
  have hadjust : (b.adjust q).Built := (hq.asOf (b.asOf.or q.asOf)).onTies _
  have hresolve : (b.lookup (α := α) q).2 = (b.resolve q).bind ambiguity? := by
    rw [lookup]
    cases b.resolve q with
    | none => rfl
    | some r => cases hpayload : Payload.ofFactor (α := α) r.factor <;> simp [hpayload]
  exact hresolve.trans (Catalog.ambiguity?_resolve hadjust h)

theorem grid_tie (code : String) : (b.grid code).2 = b.tie? (.electricityMix code) := by
  rw [← lookup_tie (α := GridFactor) h (.electricityMix code), grid]
  split <;> simp_all

/-- A trip tells the ties of its lookups, in order. -/
theorem ambiguities_of_travel {t : Trip} {o : Outcome} (ho : b.travel t = .ok o) :
    o.ambiguities = (b.tripLookups t).filterMap b.tie? := by
  obtain ⟨mode, hmode, ho⟩ := bind_eq_ok.mp ho
  rw [tripLookups, mapError_eq_ok.mp hmode]
  split at ho
  · next horigin =>
    cases ho
    rw [horigin]
    rfl
  · next origin horigin =>
    rw [horigin]
    split at ho
    · next hdestination =>
      cases ho
      rw [hdestination]
      rfl
    · next destination hdestination =>
      rw [hdestination]
      cases mode with
      | plane =>
        obtain ⟨km, hkm, ho⟩ := ambiguities_of_flight ho
        rw [ho, lookup_tie h (.flight _)]
        simp only [hkm, filterMap_single]
      | train =>
        rw [ambiguities_of_train ho, lookup_tie h (.train _)]
        exact filterMap_single.symm

/-- An evaluation tells the ties of its lookups, in their order. -/
theorem ambiguities_of_outcome {a : Activity} {o : Outcome} (ho : b.outcome a = .ok o) :
    o.ambiguities = b.ties a := by
  cases a with
  | equipment u =>
    cases ho
    have hpower := lookup_tie (α := PowerRating) h
      (.equipment u.submodule u.equipmentClass u.subClass)
    simp only [equipment, hpower, grid_tie h, ties, lookups, List.filterMap_eq_flatMap_toList,
      List.flatMap_cons, List.flatMap_nil, List.append_nil]
  | travel t => exact ambiguities_of_travel h ho
  | headcount s =>
    cases ho
    rw [ties, lookups, filterMap_single, ← lookup_tie (α := StaffFactor) h (.headcount _)]
    rfl
  | externalCloud s =>
    cases ho
    rw [ties, lookups, filterMap_single, ← lookup_tie (α := SpendFactor) h (.externalCloud _ _)]
    rfl
  | externalAi u =>
    cases ho
    rw [ties, lookups, filterMap_single, ← lookup_tie (α := RequestFactor) h (.externalAi _ _)]
    rfl

/-- An evaluation tells the ties of its lookups, in order. -/
theorem ambiguities_of_evaluate {r : ActivityRecord} {computedAt : Instant} {e : Evaluation}
    (he : b.evaluate r computedAt = .ok e) : e.ambiguities = b.ties r.activity := by
  obtain ⟨o, ho, he⟩ := bind_eq_ok.mp he
  cases he
  exact ambiguities_of_outcome h ho

/-- A tie that is broken is one of a query that may break it. -/
theorem tie_of_mem_ties {a : Activity} {tie : Ambiguity} (htie : tie ∈ b.ties a) :
    ∃ q ∈ b.lookups a, tie.kind = q.kind ∧ (b.adjust q).ties = .takeFirst ∧ tie.others ≠ [] ∧
      (tie.chosen :: tie.others).Pairwise (· < ·) := by
  obtain ⟨q, hq, htie⟩ := List.mem_filterMap.mp htie
  have hids : (b.catalog.ofKind q.kind).Pairwise fun f g => f.id < g.id := h.filter _
  obtain ⟨hkind, hties, hrest⟩ := Query.tie?_eq_some hids htie
  rw [Catalog.kind_deciding] at hkind
  rw [Catalog.ties_deciding] at hties
  exact ⟨q, hq, hkind, hties, hrest⟩

/-- Ties between flight factors are never broken, so no evaluation tells one. -/
theorem kind_ne_flight {a : Activity} {tie : Ambiguity} (htie : tie ∈ b.ties a) :
    tie.kind ≠ .flight := by
  intro hflight
  -- The query of the tie would be one for flights, which may not break ties under any settings.
  obtain ⟨q, hq, hkind, hties, _⟩ := tie_of_mem_ties h htie
  have hrefuse := refuses_of_mem_lookups hq (hkind.symm.trans hflight)
  rw [adjust, hrefuse, ite_self] at hties
  cases hties

end Ascending

end Lookups

end Basis

namespace Ledger

def record? (l : Ledger) (subject : Int64) : Option ActivityRecord :=
  (l.activity? subject).bind fun stored => stored.decode.toOption

def ties (l : Ledger) (b : Basis) (subject : Int64) : List Ambiguity :=
  match l.record? subject with
  | some r => b.ties r.activity
  | none => []

section Runs
variable {l : Ledger} {b : Basis} {requireComplete : Bool} {computedAt : Instant} {subject : Int64}

theorem ties_of_decodes {r : ActivityRecord} (hr : l.Decodes subject r) :
    l.ties b subject = b.ties r.activity := by
  obtain ⟨stored, hstored, hdecode⟩ := hr
  simp [ties, record?, hstored, hdecode, Except.toOption]

/-- The report of a subject tells the ties of its evaluation beside the subject. -/
theorem ambiguities_account (h : b.catalog.factors.Pairwise fun f g => f.id < g.id)
    (hgoes : ∀ e, ¬ l.Fails b requireComplete computedAt subject e) :
    (l.account b computedAt subject).ambiguities = (l.ties b subject).map (subject, ·) := by
  have htakes := takes l b requireComplete computedAt subject
  rw [recalculateOne_of_not_fails hgoes] at htakes
  generalize l.account b computedAt subject = report at htakes
  generalize l.replace report.committed = after at htakes
  cases htakes with
  | missing hnone => simp [ties, record?, hnone, Report.empty]
  | invalid hstored hdecode => simp [ties, record?, hstored, hdecode, Report.empty, Except.toOption]
  | incomplete hr he _ => rw [ties_of_decodes hr, ← Basis.ambiguities_of_evaluate h he]
  | complete hr he _ => rw [ties_of_decodes hr, ← Basis.ambiguities_of_evaluate h he]

end Runs

/-- An evaluation tells of each of its lookups that broke a tie, in the order of the lookups. Told
are the ids of all best candidates of the deciding query, the least as chosen, whether or not the
chosen factor can be used. Flights are never told, and nothing is if the settings refuse ties. A run
that succeeds tells of the ties of its subjects in their order, also of those that stay
incomplete. -/
theorem broken_ties_are_told {b : Basis}
    (h : b.catalog.factors.Pairwise fun f g => f.id < g.id) :
    (∀ r computedAt e, b.evaluate r computedAt = .ok e →
      e.ambiguities = (b.lookups r.activity).filterMap b.tie? ∧
      (∀ tie ∈ e.ambiguities, tie.kind ≠ .flight ∧ tie.others ≠ [] ∧
        (tie.chosen :: tie.others).Pairwise (· < ·)) ∧
      (b.settings.ties = .refuse → e.ambiguities = [])) ∧
    ∀ (l : Ledger) (options : RunOptions) (computedAt : Instant) (subjects : List Int64)
      (report : Report), (l.recalculate b options computedAt subjects).outcome = .ok report →
      report.ambiguities = subjects.flatMap fun x => (l.ties b x).map (x, ·) := by
  constructor
  · intro r computedAt e he
    rw [Basis.ambiguities_of_evaluate h he]
    refine ⟨rfl, ?_, fun hrefuse => Basis.ties_of_refuse hrefuse r.activity⟩
    intro tie htie
    obtain ⟨_, _, _, _, hothers, hascend⟩ := Basis.tie_of_mem_ties h htie
    exact ⟨Basis.kind_ne_flight h htie, hothers, hascend⟩
  · intro l options computedAt subjects report hrun
    obtain ⟨hgoes, rfl⟩ := outcome_eq_ok_iff.mp hrun
    have hjoin : (Report.join (subjects.map (l.account b computedAt))).ambiguities =
        subjects.flatMap fun x => (l.account b computedAt x).ambiguities := List.flatMap_map _ _ _
    rw [hjoin]
    exact List.flatMap_congr fun x hx => ambiguities_account h (hgoes x hx)

def lampClass (id : Int64) (subClass : String) : Factor where
  id := id
  kind := .equipment
  classification := .ofList [("submodule", .text "office"), ("class", .text "lamp"),
    ("sub_class", .text subClass)]
  quantities := .empty
  validFrom := default
  validTo := none

def worldGrid (id : Int64) (year : String) : Factor where
  id := id
  kind := .electricityMix
  classification := .ofList [("country_code", .text Country.restOfWorld), ("year", .text year)]
  quantities := .ofList [("kg_co2eq_per_kwh", 0.5)]
  validFrom := default
  validTo := none

def polishLamp : ActivityRecord :=
  ⟨4, .equipment ⟨"office", "lamp", none, .inService, .hours 40.0 0.0, none, none, some "PL"⟩⟩

def tiedRates : Basis :=
  ⟨⟨[lampClass 1 "desk", lampClass 2 "floor", worldGrid 3 "2023", worldGrid 5 "2024"]⟩, .empty,
    .default, none⟩

/-- A lamp in Poland with two tied ratings and two tied mix factors tells both ties. -/
theorem polish_lamp_tells_both_ties :
    ∃ e report, tiedRates.evaluate polishLamp ⟨9, 0⟩ = .ok e ∧
      e.emissions.map (·.kg) = [none] ∧
      e.ambiguities = [⟨.equipment, 1, [2]⟩, ⟨.electricityMix, 3, [5]⟩] ∧
      e.ambiguities = (tiedRates.lookups polishLamp.activity).filterMap tiedRates.tie? ∧
      ((empty.record polishLamp).recalculate tiedRates .default ⟨9, 0⟩ [4, 8]).outcome =
        .ok report ∧
      report.ambiguities = [(4, ⟨.equipment, 1, [2]⟩), (4, ⟨.electricityMix, 3, [5]⟩)] ∧
      report.ambiguities =
        [4, 8].flatMap fun x => ((empty.record polishLamp).ties tiedRates x).map (x, ·) := by
  have hids : tiedRates.catalog.factors.Pairwise fun f g => f.id < g.id := by decide
  obtain ⟨hevaluated, hrun⟩ := broken_ties_are_told hids
  obtain ⟨e, he⟩ : ∃ e, tiedRates.evaluate polishLamp ⟨9, 0⟩ = .ok e := ⟨_, rfl⟩
  have hkg : e.emissions.map (·.kg) = [none] := by
    cases he
    decide +kernel
  have htold : e.ambiguities = [⟨.equipment, 1, [2]⟩, ⟨.electricityMix, 3, [5]⟩] := by
    cases he
    decide +kernel
  have hgoes : ∀ x ∈ [4, 8], ∀ e, ¬ (empty.record polishLamp).Fails tiedRates false ⟨9, 0⟩ x e :=
    not_fails_of_findSome? rfl
  have hreport : ((empty.record polishLamp).recalculate tiedRates .default ⟨9, 0⟩ [4, 8]).outcome =
      .ok _ := outcome_eq_join hgoes
  exact ⟨e, _, he, hkg, htold, (hevaluated _ _ e he).1, hreport, by decide +kernel,
    hrun _ _ _ _ _ hreport⟩

end Ledger
end CarbonLedger
