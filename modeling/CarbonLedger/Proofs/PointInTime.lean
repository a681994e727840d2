import CarbonLedger.Emission.Evaluation

/-! Looking back in time. A replacement ends versions at the time at which it starts itself, so at
every earlier time the same factors hold. -/

namespace CarbonLedger

def Lead.change (φ : Factor → Factor) (l : Lead) : Lead :=
  ⟨l.rank, φ l.first, l.others.map φ⟩

def Resolution.change (φ : Factor → Factor) (r : Resolution) : Resolution :=
  { r with factor := φ r.factor }

def Resolution.withoutEnd : Resolution → Resolution :=
  Resolution.change fun f => { f with validTo := none }

def Evaluation.stamped (e : Evaluation) (computedAt : Instant) : Evaluation :=
  { e with emissions := e.emissions.map fun m => { m with computedAt := computedAt } }

namespace Query

section Scan
variable {p q : Query} {φ : Factor → Factor}

theorem meet_change {f : Factor} (h : p.rank? (φ f) = q.rank? f) (lead : Option Lead) :
    p.meet (lead.map (Lead.change φ)) (φ f) = (q.meet lead f).map (Lead.change φ) := by
  unfold meet
  rw [h]
  cases q.rank? f with
  | none => cases lead <;> rfl
  | some r =>
    cases lead with
    | none => rfl
    | some l =>
      simp only [Option.map_some, Lead.change]
      split
      · rfl
      · split
        · simp [Lead.change]
        · rfl

/-- Changes of the candidates and of the query that keep ranks change the factors that lead, and
nothing else. -/
theorem lead_map {candidates : List Factor} (h : ∀ f ∈ candidates, p.rank? (φ f) = q.rank? f) :
    p.lead (candidates.map φ) = (q.lead candidates).map (Lead.change φ) := by
  have hscan (lead : Option Lead) : (candidates.map φ).foldl p.meet (lead.map (Lead.change φ)) =
      (candidates.foldl q.meet lead).map (Lead.change φ) := by
    induction candidates generalizing lead with
    | nil => rfl
    | cons f r ih =>
      rw [List.map_cons, List.foldl_cons, List.foldl_cons, meet_change (h f List.mem_cons_self)]
      exact ih (fun g hg => h g (List.mem_cons_of_mem _ hg)) _
  exact hscan none

theorem lead_append_of_unfit {candidates more : List Factor} (h : ∀ f ∈ more, q.rank? f = none) :
    q.lead (candidates ++ more) = q.lead candidates := by
  have hscan (lead : Option Lead) : more.foldl q.meet lead = lead := by
    induction more with
    | nil => rfl
    | cons f r ih =>
      have hmeet : q.meet lead f = lead := by
        unfold meet
        rw [h f List.mem_cons_self]
      rw [List.foldl_cons, hmeet]
      exact ih fun g hg => h g (List.mem_cons_of_mem _ hg)
  rw [lead, List.foldl_append, hscan]
  rfl

/-- A change of factors that keeps ids and ranks changes a resolution factor by factor. -/
theorem resolve_change {candidates more : List Factor}
    (hconditions : p.conditions = q.conditions) (hties : p.ties = q.ties)
    (hrank : ∀ f ∈ candidates, p.rank? (φ f) = q.rank? f) (hid : ∀ f, (φ f).id = f.id)
    (hmore : ∀ f ∈ more, p.rank? f = none) :
    p.resolve (candidates.map φ ++ more) = (q.resolve candidates).map (Resolution.change φ) := by
  have hids (others : List Factor) : (others.map φ).map (·.id) = others.map (·.id) := by
    rw [List.map_map]
    exact List.map_congr_left fun f _ => hid f
  rw [resolve, lead_append_of_unfit hmore, lead_map hrank, resolve, hties, hconditions]
  cases q.lead candidates with
  | none => rfl
  | some l =>
    simp only [Option.map_some, Lead.change, hids, List.isEmpty_map]
    split <;> rfl

end Scan

theorem asOf_restOfWorld? {q w : Query} (h : q.restOfWorld? = some w) : w.asOf = q.asOf := by
  rw [restOfWorld?] at h
  split at h
  · cases h
  · split at h
    · cases h
    · rw [← Option.some.inj h]
      rfl

/-- A condition on a text does not change the time that a query asks for. -/
theorem asOf_refineText (q : Query) (key : String) (value : Option String) :
    (q.refineText key value).asOf = q.asOf := by
  rw [refineText]
  split <;> rfl

end Query

namespace Catalog

/-- A version that a replacement ends holds at the times before as it did. -/
theorem isValidAt_endFor {d : Draft} {t : Instant} (ht : t < d.validFrom) (f : Factor) :
    (endFor d f).isValidAt t = f.isValidAt t := by
  rw [endFor]
  split
  · next h =>
    rw [endedBy, Bool.and_eq_true, Bool.and_eq_true, Factor.isCurrent,
      Option.isNone_iff_eq_none] at h
    -- The version had no end yet, and the end it is given is later than `t`.
    simp [Factor.isValidAt, h.1.1, ht]
  · rfl

/-- Before the draft starts, ending a factor does not change how it ranks. -/
theorem rank?_endFor {q : Query} {d : Draft} {t : Instant} (hq : q.asOf = some t)
    (ht : t < d.validFrom) (f : Factor) : q.rank? (endFor d f) = q.rank? f := by
  have hfits : q.fits (endFor d f) = q.fits f := by
    simp only [Query.fits, kind_endFor, classification_endFor, hq, Factor.inWindow,
      isValidAt_endFor ht]
  simp only [Query.rank?, hfits, Query.matched, classification_endFor]

/-- Before the draft starts, its factor is not eligible. -/
theorem rank?_inserted {q : Query} {d : Draft} {t : Instant} (hq : q.asOf = some t)
    (ht : t < d.validFrom) (id : Int64) : q.rank? (d.toFactor id) = none := by
  have hwindow : (d.toFactor id).inWindow q.asOf = false := by
    have hnot : ¬ d.validFrom ≤ t := Instant.not_le.mpr ht
    simp [hq, Factor.inWindow, Factor.isValidAt, Draft.toFactor, hnot]
  rw [Query.rank?, Query.fits, hwindow, Bool.and_false, Bool.false_and]
  rfl

theorem ofKind_renewed (c : Catalog) (d : Draft) (id : Int64) (kind : EmissionKind) :
    (c.renewed d id).ofKind kind = (c.ofKind kind).map (endFor d) ++
      [d.toFactor id].filter fun f => f.kind == kind := by
  have hkind : (fun f : Factor => f.kind == kind) ∘ endFor d = fun f => f.kind == kind := by
    funext f
    rw [Function.comp_apply, kind_endFor]
  rw [ofKind, renewed, List.filter_append, List.filter_map, hkind]
  rfl

theorem resolve_ofKind_renewed {q : Query} {d : Draft} {t : Instant} (hq : q.asOf = some t)
    (ht : t < d.validFrom) (c : Catalog) (id : Int64) (kind : EmissionKind) :
    q.resolve ((c.renewed d id).ofKind kind) =
      (q.resolve (c.ofKind kind)).map (Resolution.change (endFor d)) := by
  rw [ofKind_renewed]
  apply Query.resolve_change rfl rfl
  · exact fun f _ => rank?_endFor hq ht f
  · exact id_endFor d
  · intro f hf
    rw [List.mem_singleton.mp (List.mem_filter.mp hf).1]
    exact rank?_inserted hq ht _

/-- Before the draft starts, queries find what they found, with its new end. -/
theorem resolve_renewed {q : Query} {d : Draft} {t : Instant} (hq : q.asOf = some t)
    (ht : t < d.validFrom) (c : Catalog) (id : Int64) :
    (c.renewed d id).resolve q = (c.resolve q).map (Resolution.change (endFor d)) := by
  rw [resolve, resolve, Query.resolveAnywhere, Query.resolveAnywhere,
    resolve_ofKind_renewed hq ht]
  cases q.resolve (c.ofKind q.kind) with
  | some r => rfl
  | none =>
    cases hw : q.restOfWorld? with
    | none => rfl
    | some w =>
      -- The stand-in asks at the same time, so it finds the same as well.
      have hwt : w.asOf = some t := (Query.asOf_restOfWorld? hw).trans hq
      simp only [Option.map_none, resolve_ofKind_renewed hwt ht, Option.map_map]
      rfl

theorem withoutEnd_change_endFor (d : Draft) (r : Resolution) :
    (r.change (endFor d)).withoutEnd = r.withoutEnd := by
  simp only [Resolution.withoutEnd, Resolution.change, endFor]
  split <;> rfl

end Catalog

namespace Basis

def withCatalog (b : Basis) (c : Catalog) : Basis := { b with catalog := c }

/-- An evaluation reads the catalog by looking up payloads alone, and none of its queries asks for a
time by itself. -/
theorem outcome_of_lookup (b b' : Basis) (hdirectory : b'.directory = b.directory)
    (hsettings : b'.settings = b.settings)
    (h : ∀ (α : Type) [Payload α] (q : Query), q.asOf = none →
      b'.lookup (α := α) q = b.lookup q) (a : Activity) : b'.outcome a = b.outcome a := by
  have hgrid (country : String) : b'.grid country = b.grid country := by
    rw [grid, grid, h GridFactor (.electricityMix country) rfl, hsettings]
  have hcountry (u : EquipmentUse) : b'.gridCountry u = b.gridCountry u := by
    rw [gridCountry, gridCountry, hsettings]
  have hflight (t : Trip) (origin destination : Location) :
      b'.flight t origin destination = b.flight t origin destination := by
    have hfactor (haul : HaulCategory) := h FlightFactor (.flight haul) rfl
    simp only [flight, hfactor]
  have htrain (t : Trip) (origin destination : Location) :
      b'.train t origin destination = b.train t origin destination := by
    have hfactor (country : String) := h TrainFactor (.train country) rfl
    simp only [train, hfactor, hsettings]
  cases a with
  | equipment u =>
    have hpower := h PowerRating (.equipment u.submodule u.equipmentClass u.subClass)
      (Query.asOf_refineText _ _ _)
    simp only [outcome, equipment, hpower, hgrid, hcountry, hsettings]
  | travel t => simp only [outcome, travel, hflight, htrain, hdirectory]
  | headcount s =>
    have hfactor := h StaffFactor (.headcount s.category) (Query.asOf_refineText _ _ _)
    simp only [outcome, headcount, hfactor]
  | externalCloud s =>
    have hfactor := h SpendFactor (.externalCloud s.provider s.service)
      (Query.asOf_refineText _ _ _)
    simp only [outcome, externalCloud, hfactor]
  | externalAi u =>
    have hfactor := h RequestFactor (.externalAi u.provider u.useCase)
      (Query.asOf_refineText _ _ _)
    simp only [outcome, externalAi, hfactor]

theorem lookup_renewed {α : Type} [Payload α] {b : Basis} {d : Draft} {t : Instant}
    (hb : b.asOf = some t) (ht : t < d.validFrom) (id : Int64) (q : Query) :
    (b.withCatalog (b.catalog.renewed d id)).lookup (α := α) q = b.lookup q := by
  have hq : (b.adjust q).asOf = some t := by
    rw [adjust, hb]
    rfl
  have hresolve : (b.withCatalog (b.catalog.renewed d id)).resolve q =
      (b.resolve q).map (Resolution.change (Catalog.endFor d)) :=
    Catalog.resolve_renewed hq ht b.catalog id
  rw [lookup, lookup, hresolve]
  cases b.resolve q with
  | none => rfl
  | some r =>
    -- The factor differs in its end alone, which neither the payload nor the tie reads.
    have hpayload : Payload.ofFactor (α := α) (Catalog.endFor d r.factor) =
        Payload.ofFactor r.factor := by
      rw [Catalog.endFor]
      split
      · exact Payload.ofFactor_ending _ _
      · rfl
    have htie : ambiguity? (r.change (Catalog.endFor d)) = ambiguity? r := by
      simp [ambiguity?, Resolution.change]
    have hfactor : (r.change (Catalog.endFor d)).factor = Catalog.endFor d r.factor := rfl
    simp only [Option.map_some, htie, hfactor, hpayload]

/-- What an evaluation says does not depend on when it is made. -/
theorem evaluate_stamped (b : Basis) (r : ActivityRecord) (first second : Instant) :
    b.evaluate r second = (b.evaluate r first).map fun e => e.stamped second := by
  rw [evaluate, evaluate]
  cases b.outcome r.activity with
  | error e => rfl
  | ok o =>
    have hstamped :
        (⟨o.calculations.map (·.toEmission r.subject second), o.ambiguities⟩ : Evaluation) =
        (⟨o.calculations.map (·.toEmission r.subject first), o.ambiguities⟩ : Evaluation).stamped
          second := by
      rw [Evaluation.stamped, List.map_map]
      rfl
    exact congrArg Except.ok hstamped

/-- Before the draft starts, activities are evaluated as they were. -/
theorem evaluate_renewed {b : Basis} {d : Draft} {t : Instant} (hb : b.asOf = some t)
    (ht : t < d.validFrom) (id : Int64) (r : ActivityRecord) (first second : Instant) :
    (b.withCatalog (b.catalog.renewed d id)).evaluate r second =
      (b.evaluate r first).map fun e => e.stamped second := by
  have houtcome := outcome_of_lookup b (b.withCatalog (b.catalog.renewed d id)) rfl rfl
    (fun _ _ q _ => lookup_renewed hb ht id q) r.activity
  rw [← evaluate_stamped, evaluate, evaluate, houtcome]

end Basis

/-- A replacement leaves the past alone. For every time before it starts, a query finds the factor
that it found before, but for its end, and every record is evaluated as before, but for when. -/
theorem replacement_keeps_past {c c' : Catalog} {d : Draft} {s : Supersession}
    (h : c.supersede d = .ok (c', s)) {t : Instant} (ht : t < d.validFrom) :
    (∀ q : Query, (c'.resolve { q with asOf := some t }).map Resolution.withoutEnd =
      (c.resolve { q with asOf := some t }).map Resolution.withoutEnd) ∧
    ∀ (directory : Directory) (settings : Settings) (r : ActivityRecord) (first second : Instant),
      Basis.evaluate ⟨c', directory, settings, some t⟩ r second =
        (Basis.evaluate ⟨c, directory, settings, some t⟩ r first).map (·.stamped second) := by
  obtain ⟨id, _, rfl⟩ := Catalog.supersede_eq_ok h
  refine ⟨?_, ?_⟩
  · intro q
    have hq : ({ q with asOf := some t } : Query).asOf = some t := rfl
    rw [Catalog.resolve_renewed hq ht, Option.map_map]
    cases c.resolve { q with asOf := some t } with
    | none => rfl
    | some r => exact congrArg some (Catalog.withoutEnd_change_endFor d r)
  · intro directory settings r first second
    have hb : (⟨c, directory, settings, some t⟩ : Basis).asOf = some t := rfl
    exact Basis.evaluate_renewed hb ht id r first second

def cloudRate (kgPerUnit : Float) (start : Instant) : Draft :=
  ⟨.externalCloud, .ofList [("provider", .text "aws")],
    .ofList [("kg_co2eq_per_currency_unit", kgPerUnit)], start⟩

/-- A cloud rate of 2024 that is replaced from 2025 on. -/
theorem replaced_cloud_rate_keeps_past :
    let old := (cloudRate 0.5 ⟨0, 0⟩).toFactor 1
    let d := cloudRate 0.25 ⟨1000, 0⟩
    let c : Catalog := ⟨[old]⟩
    let ended := { old with validTo := some ⟨1000, 0⟩ }
    let c' : Catalog := ⟨[ended, d.toFactor 2]⟩
    let q := { Query.externalCloud "aws" none with asOf := some ⟨999, 0⟩ }
    let spend : ActivityRecord := ⟨7, .externalCloud ⟨"aws", none, 80.0⟩⟩
    c.supersede d = .ok (c', ⟨[1], d.toFactor 2⟩) ∧ c'.resolve q = some ⟨ended, 1, false, []⟩ ∧
      (c'.resolve q).map Resolution.withoutEnd = (c.resolve q).map Resolution.withoutEnd ∧
      Basis.evaluate ⟨c', .empty, .default, some ⟨999, 0⟩⟩ spend ⟨3000, 0⟩ =
        (Basis.evaluate ⟨c, .empty, .default, some ⟨999, 0⟩⟩ spend ⟨2000, 0⟩).map
          (·.stamped ⟨3000, 0⟩) := by
  intro old d c ended c' q spend
  have hdone : c.supersede d = .ok (c', ⟨[1], d.toFactor 2⟩) := rfl
  have htime : (⟨999, 0⟩ : Instant) < d.validFrom := by decide
  obtain ⟨hfound, hevaluated⟩ := replacement_keeps_past hdone htime
  exact ⟨hdone, rfl, hfound _, hevaluated _ _ _ _ _⟩

end CarbonLedger
