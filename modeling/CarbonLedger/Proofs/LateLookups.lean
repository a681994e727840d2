import CarbonLedger.Proofs.PointInTime
import CarbonLedger.Proofs.VersionWindows

namespace CarbonLedger
namespace Query

/-- What a query finds depends on the time that it asks for through the window alone. -/
theorem resolve_of_window {q : Query} {s t : Option Instant} {candidates : List Factor}
    (h : ∀ f ∈ candidates, f.inWindow s = f.inWindow t) :
    { q with asOf := s }.resolve candidates = { q with asOf := t }.resolve candidates := by
  have hrank : ∀ f ∈ candidates,
      { q with asOf := s }.rank? (id f) = { q with asOf := t }.rank? f := by
    intro f hf
    simp only [rank?, fits, h f hf, id_eq]
    rfl
  have hfound := resolve_change (p := { q with asOf := s }) (q := { q with asOf := t }) rfl rfl
    hrank (fun _ => rfl) (List.forall_mem_nil _)
  rw [List.map_id, List.append_nil] at hfound
  rw [hfound]
  cases { q with asOf := t }.resolve candidates <;> rfl

/-- The stand-in for the rest of the world asks for the same time. -/
theorem restOfWorld?_asOf (q : Query) (t : Option Instant) :
    { q with asOf := t }.restOfWorld? = q.restOfWorld?.map fun w => { w with asOf := t } := by
  have hcondition : { q with asOf := t }.condition? "country_code" =
      q.condition? "country_code" := rfl
  rw [restOfWorld?, restOfWorld?, hcondition]
  cases q.condition? "country_code" with
  | none => rfl
  | some d =>
    dsimp only
    split <;> rfl

theorem resolveAnywhere_of_window {q : Query} {s t : Option Instant} {candidates : List Factor}
    (h : ∀ f ∈ candidates, f.inWindow s = f.inWindow t) :
    { q with asOf := s }.resolveAnywhere candidates =
      { q with asOf := t }.resolveAnywhere candidates := by
  rw [resolveAnywhere, resolveAnywhere, resolve_of_window h, restOfWorld?_asOf q s,
    restOfWorld?_asOf q t]
  cases q.restOfWorld? with
  | none => rfl
  | some w => simp only [Option.map_some, resolve_of_window h]

end Query

namespace Catalog
variable {c : Catalog}

/-- Every version that has an end ends when some factor starts. -/
def EndsAtStarts (c : Catalog) : Prop :=
  ∀ f ∈ c.factors, ∀ e, f.validTo = some e → ∃ g ∈ c.factors, g.validFrom = e

theorem endsAtStarts_place (h : c.EndsAtStarts) {f : Factor} (hf : f.isCurrent = true) :
    EndsAtStarts ⟨place f c.factors⟩ := by
  intro g hg e he
  rcases mem_place.mp hg with rfl | hg
  · rw [Factor.isCurrent, he] at hf
    cases hf
  · obtain ⟨s, hs, hstart⟩ := h g hg e he
    exact ⟨s, mem_place.mpr (Or.inr hs), hstart⟩

/-- A replacement ends old versions just where the new one starts. -/
theorem endsAtStarts_renewed (h : c.EndsAtStarts) (d : Draft) (id : Int64) :
    (c.renewed d id).EndsAtStarts := by
  intro g hg e he
  rcases List.mem_append.mp hg with hg | hg
  · obtain ⟨f, hf, rfl⟩ := List.mem_map.mp hg
    by_cases hended : endedBy d f = true
    · -- The new end is the start of the draft, which is there now.
      rw [endFor, if_pos hended] at he
      cases he
      exact ⟨_, List.mem_append_right _ List.mem_cons_self, rfl⟩
    · rw [endFor, if_neg hended] at he
      obtain ⟨s, hs, hstart⟩ := h f hf e he
      exact ⟨endFor d s, List.mem_append_left _ (List.mem_map_of_mem hs),
        (validFrom_endFor d s).trans hstart⟩
  · rw [List.mem_singleton.mp hg] at he
    cases he

theorem Grown.endsAtStarts (h : c.Grown) : c.EndsAtStarts := by
  induction h with
  | empty => exact List.forall_mem_nil _
  | @call c x _ hx ih =>
    rcases x.on_cases c with ⟨e, hon⟩ | ⟨f, rfl, _, hon⟩ | ⟨d, id, rfl, _, _, hon⟩
    · rw [hon]
      exact ih
    · rw [hon]
      exact endsAtStarts_place ih hx
    · rw [hon]
      exact endsAtStarts_renewed ih d id

/-- Once all factors have started, those that hold are the current ones. -/
theorem EndsAtStarts.inWindow_late (h : c.EndsAtStarts) {t : Instant}
    (ht : ∀ f ∈ c.factors, f.validFrom ≤ t) {f : Factor} (hf : f ∈ c.factors) :
    f.inWindow (some t) = f.inWindow none := by
  rw [Factor.inWindow, Factor.inWindow, Bool.eq_iff_iff, Factor.isValidAt_iff, Factor.isCurrent,
    Option.isNone_iff_eq_none]
  constructor
  · rintro ⟨_, hbefore⟩
    cases hto : f.validTo with
    | none => rfl
    | some e =>
      obtain ⟨g, hg, hstart⟩ := h f hf e hto
      exact absurd (hbefore e hto) (Instant.not_lt.mpr (hstart ▸ ht g hg))
  · intro hto
    refine ⟨ht f hf, ?_⟩
    intro e he
    rw [hto] at he
    cases he

/-- Once all factors have started, a query finds what it finds among the current ones. -/
theorem EndsAtStarts.resolve_late (h : c.EndsAtStarts) {t : Instant}
    (ht : ∀ f ∈ c.factors, f.validFrom ≤ t) (q : Query) :
    c.resolve { q with asOf := some t } = c.resolve { q with asOf := none } := by
  rw [resolve, resolve]
  apply Query.resolveAnywhere_of_window
  exact fun f hf => h.inWindow_late ht (mem_ofKind.mp hf).1

end Catalog

namespace Basis

section Late
variable {b : Basis} (hb : b.asOf = none) (hends : b.catalog.EndsAtStarts) {t : Instant}
  (ht : ∀ f ∈ b.catalog.factors, f.validFrom ≤ t)
include hb hends ht

theorem lookup_late {α : Type} [Payload α] {q : Query} (hq : q.asOf = none) :
    { b with asOf := some t }.lookup (α := α) q = b.lookup q := by
  have hresolve : { b with asOf := some t }.resolve q = b.resolve q := by
    have hlate := hends.resolve_late ht (b.adjust q)
    rw [resolve, resolve, adjust, adjust, hb, hq]
    exact hlate
  rw [lookup, lookup, hresolve]

/-- Once all factors have started, an evaluation as of that time uses the current ones. -/
theorem evaluate_late (r : ActivityRecord) (first second : Instant) :
    { b with asOf := some t }.evaluate r second =
      (b.evaluate r first).map fun e => e.stamped second := by
  have houtcome := outcome_of_lookup b { b with asOf := some t } rfl rfl
    (fun _ _ _ hq => lookup_late hb hends ht hq) r.activity
  rw [← evaluate_stamped, evaluate, evaluate, houtcome]

end Late

end Basis

/-- In a catalog into which all factors came as current, a query for a time at which all of them
have started finds what the query for the current ones finds, and every record is evaluated as it is
by the current ones, but for when. -/
theorem late_lookups_are_current {c : Catalog} (hc : c.Grown) {t : Instant}
    (ht : ∀ f ∈ c.factors, f.validFrom ≤ t) :
    (∀ q : Query, c.resolve { q with asOf := some t } = c.resolve { q with asOf := none }) ∧
    ∀ (directory : Directory) (settings : Settings) (r : ActivityRecord) (first second : Instant),
      Basis.evaluate ⟨c, directory, settings, some t⟩ r second =
        (Basis.evaluate ⟨c, directory, settings, none⟩ r first).map (·.stamped second) := by
  have hends := hc.endsAtStarts
  refine ⟨hends.resolve_late ht, ?_⟩
  intro directory settings
  exact Basis.evaluate_late (b := ⟨c, directory, settings, none⟩) rfl hends ht

/-- The third rate of a cloud is found from its start on as it is with no time. -/
theorem third_cloud_rate_is_current_from_its_start :
    let c₁ := ((Catalog.Call.enter ((cloudRate 0.5 ⟨0, 0⟩).toFactor 7)).write.on .empty).2
    let c₂ := ((Catalog.Call.renew (cloudRate 0.25 ⟨1000, 0⟩)).write.on c₁).2
    let c := ((Catalog.Call.renew (cloudRate 0.75 ⟨2000, 0⟩)).write.on c₂).2
    let q := { Query.externalCloud "aws" none with asOf := some ⟨2000, 0⟩ }
    let spend : ActivityRecord := ⟨7, .externalCloud ⟨"aws", none, 80.0⟩⟩
    c.Grown ∧ (∀ f ∈ c.factors, f.validFrom ≤ ⟨2000, 0⟩) ∧
      c.factors.map (fun f => (f.id, f.isCurrent)) = [(7, false), (8, false), (9, true)] ∧
      (c.resolve q).map (·.factor.id) = some 9 ∧
      c.resolve q = c.resolve { q with asOf := none } ∧
      Basis.evaluate ⟨c, .empty, .default, some ⟨2000, 0⟩⟩ spend ⟨4000, 0⟩ =
        (Basis.evaluate ⟨c, .empty, .default, none⟩ spend ⟨3000, 0⟩).map (·.stamped ⟨4000, 0⟩) := by
  intro c₁ c₂ c q spend
  have hcurrent : (Catalog.Call.enter ((cloudRate 0.5 ⟨0, 0⟩).toFactor 7)).BringsCurrent := rfl
  have hc : c.Grown := ((Catalog.Grown.empty.call _ hcurrent).call (.renew _) trivial).call
    (.renew _) trivial
  have ht : ∀ f ∈ c.factors, f.validFrom ≤ ⟨2000, 0⟩ := by decide
  obtain ⟨hfound, hevaluated⟩ := late_lookups_are_current hc ht
  exact ⟨hc, ht, rfl, rfl, hfound q, hevaluated _ _ _ _ _⟩

end CarbonLedger
