import CarbonLedger.Emission.Evaluation
import CarbonLedger.Proofs.RestOfWorld
import Mathlib.Tactic.NthRewrite

namespace CarbonLedger

def Factor.bears (f : Factor) (kind : EmissionKind) (key text : String) (asOf : Option Instant) :
    Bool :=
  f.kind == kind && f.inWindow asOf && f.classification.get? key == some (.text text)

theorem Factor.bears_iff {f : Factor} {kind : EmissionKind} {key text : String}
    {asOf : Option Instant} : f.bears kind key text asOf = true ↔
      f.kind = kind ∧ f.inWindow asOf = true ∧ f.classification.get? key = some (.text text) := by
  have hlabel : (f.classification.get? key == some (.text text)) = true ↔
      f.classification.get? key = some (.text text) := by
    cases f.classification.get? key with
    | none => simp
    | some v =>
      have hv : (some v == some (Label.text text)) = (v == .text text) := rfl
      rw [hv, Label.beq_text_iff, Option.some.injEq]
  rw [bears, Bool.and_eq_true, Bool.and_eq_true, beq_iff_eq, hlabel, and_assoc]

namespace Catalog

def bearing (c : Catalog) (kind : EmissionKind) (key text : String) (asOf : Option Instant) :
    List Factor :=
  c.factors.filter fun f => f.bears kind key text asOf

def plainest (c : Catalog) (kind : EmissionKind) (key text : String) (asOf : Option Instant) :
    List Factor :=
  (c.bearing kind key text asOf).filter fun f =>
    (c.bearing kind key text asOf).all fun g => f.classification.size ≤ g.classification.size

theorem bearing_eq_filter_ofKind {c : Catalog} {kind : EmissionKind} {key text : String}
    {asOf : Option Instant} :
    c.bearing kind key text asOf = (c.ofKind kind).filter fun f => f.bears kind key text asOf := by
  rw [bearing, ofKind, List.filter_filter]
  apply List.filter_congr
  intro f _
  cases hf : f.bears kind key text asOf with
  | false => rfl
  | true => simp [(Factor.bears_iff.mp hf).1]

end Catalog

namespace Query

def ofLabel (kind : EmissionKind) (key text : String) (asOf : Option Instant) (ties : TiePolicy) :
    Query :=
  ⟨kind, [⟨key, .text text, .required⟩], asOf, ties⟩

section Label
variable {kind : EmissionKind} {key text : String} {asOf : Option Instant} {ties : TiePolicy}
  {f g : Factor}

theorem nodup_keys_ofLabel (kind : EmissionKind) (key text : String) (asOf : Option Instant)
    (ties : TiePolicy) : (ofLabel kind key text asOf ties).keys.Nodup :=
  List.pairwise_singleton _ key

/-- The factors eligible for a query of one label are those that bear it. -/
theorem eligible_ofLabel_iff :
    (ofLabel kind key text asOf ties).Eligible f ↔ f.bears kind key text asOf = true := by
  have hlabels : ([⟨key, .text text, .required⟩] : List Condition).all
      (fun d => d.allows f.classification) =
        (f.classification.get? key == some (.text text)) := by
    rw [List.all_cons, List.all_nil, Bool.and_true, Condition.allows]
    cases f.classification.get? key <;> rfl
  rw [← fits_iff_eligible, fits, ofLabel, hlabels]
  rfl

theorem matched_ofLabel (h : f.bears kind key text asOf = true) :
    (ofLabel kind key text asOf ties).matched f = 1 := by
  have hmet : (⟨key, .text text, .required⟩ : Condition).metBy f.classification = true :=
    Condition.metBy_text_iff.mpr (Factor.bears_iff.mp h).2.2
  rw [matched, ofLabel, List.countP_singleton, if_pos hmet]

/-- The one condition is met by both, so fewer labels are what is preferred. -/
theorem prefers_ofLabel_iff (hf : f.bears kind key text asOf = true)
    (hg : g.bears kind key text asOf = true) :
    (ofLabel kind key text asOf ties).Prefers g f ↔
      g.classification.size < f.classification.size := by
  have hk := nodup_keys_ofLabel kind key text asOf ties
  have hfsize := matched_add_unmatched hk f
  have hgsize := matched_add_unmatched hk g
  rw [matched_ofLabel hf] at hfsize
  rw [matched_ofLabel hg] at hgsize
  rw [Prefers, matched_ofLabel hf, matched_ofLabel hg]
  omega

end Label

/-- The best factors for a query of one label are the plainest that bear it. -/
theorem best_ofLabel (c : Catalog) (kind : EmissionKind) (key text : String)
    (asOf : Option Instant) (ties : TiePolicy) :
    (ofLabel kind key text asOf ties).best (c.ofKind kind) = c.plainest kind key text asOf := by
  rw [best, Catalog.plainest]
  nth_rewrite 2 [Catalog.bearing_eq_filter_ofKind]
  rw [List.filter_filter]
  apply List.filter_congr
  intro f _
  rw [Bool.eq_iff_iff, Bool.and_eq_true, decide_eq_true_iff, IsBest, eligible_ofLabel_iff,
    List.all_eq_true, and_comm]
  apply and_congr_left
  intro hf
  rw [Catalog.bearing_eq_filter_ofKind]
  constructor
  · intro hbest g hg
    obtain ⟨hgk, hgl⟩ := List.mem_filter.mp hg
    have hnot := hbest g hgk (eligible_ofLabel_iff.mpr hgl)
    rw [prefers_ofLabel_iff hf hgl, Nat.not_lt] at hnot
    exact decide_eq_true hnot
  · intro hleast g hg hge
    have hgl := eligible_ofLabel_iff.mp hge
    have hle := hleast g (List.mem_filter.mpr ⟨hg, hgl⟩)
    rw [prefers_ofLabel_iff hf hgl, Nat.not_lt]
    exact of_decide_eq_true hle

end Query

namespace Catalog
variable {c : Catalog} {kind : EmissionKind} {key text code : String} {asOf : Option Instant}
  {ties : TiePolicy}

theorem mem_bearing_of_mem_plainest {f : Factor} (h : f ∈ c.plainest kind key text asOf) :
    f ∈ c.bearing kind key text asOf := (List.mem_filter.mp h).1

theorem plainest_eq_nil_iff :
    c.plainest kind key text asOf = [] ↔ c.bearing kind key text asOf = [] := by
  rw [← Query.best_ofLabel c kind key text asOf .takeFirst,
    Query.best_eq_nil_iff (Query.nodup_keys_ofLabel _ _ _ _ _), bearing_eq_filter_ofKind,
    List.filter_eq_nil_iff]
  simp only [Query.eligible_ofLabel_iff]

/-- What a label finds among the factors of a kind: the first of the plainest that bear it. -/
theorem resolve_ofLabel :
    (Query.ofLabel kind key text asOf ties).resolve (c.ofKind kind) =
      match c.plainest kind key text asOf with
      | [] => none
      | f :: others =>
        if !others.isEmpty && ties == .refuse then none
        else some ⟨f, 1, false, others.map (·.id)⟩ := by
  rw [Query.resolve_eq_best (Query.nodup_keys_ofLabel _ _ _ _ _), Query.best_ofLabel]
  match h : c.plainest kind key text asOf with
  | [] => rfl
  | f :: others =>
    have hf : f ∈ c.bearing kind key text asOf :=
      mem_bearing_of_mem_plainest (h ▸ List.mem_cons_self)
    have hall : (Query.ofLabel kind key text asOf ties).conditions.length = 1 := rfl
    simp only [Query.matched_ofLabel (List.mem_filter.mp hf).2, hall, Nat.lt_irrefl, decide_false]
    rfl

/-- A kind of factors goes by a key: no two of them have one text under it, and one has `text`. -/
structure Lists (c : Catalog) (kind : EmissionKind) (key text : String) : Prop where
  entry : ∃ f ∈ c.ofKind kind, f.classification.get? key = some (.text text)
  distinct : ((c.ofKind kind).map fun f => (f.classification.get? key).bind Label.text?).Nodup

theorem Lists.length_bearing_le_one (h : c.Lists kind key text) :
    (c.bearing kind key text asOf).length ≤ 1 := by
  have htext {f : Factor} (hf : f ∈ c.bearing kind key text asOf) :
      (f.classification.get? key).bind Label.text? = some text := by
    rw [(Factor.bears_iff.mp (List.mem_filter.mp hf).2).2.2]
    rfl
  have hsub : (c.bearing kind key text asOf).Sublist (c.ofKind kind) := by
    rw [bearing_eq_filter_ofKind]
    exact List.filter_sublist
  have hnodup := h.distinct.sublist (hsub.map _)
  rwa [List.map_eq_replicate_iff.mpr fun f hf => htext hf, List.nodup_replicate] at hnodup

/-- A text that is listed finds its factor if that is in the window, whatever is done with ties. -/
theorem Lists.isSome_resolve (h : c.Lists kind key text)
    (hwindow : ∀ f ∈ c.factors, f.inWindow asOf = true) :
    ((Query.ofLabel kind key text asOf ties).resolve (c.ofKind kind)).isSome = true := by
  obtain ⟨f, hf, hlabel⟩ := h.entry
  obtain ⟨hmem, hkind⟩ := mem_ofKind.mp hf
  have hbears := Factor.bears_iff.mpr ⟨hkind, hwindow f hmem, hlabel⟩
  refine Query.isSome_resolve (Query.nodup_keys_ofLabel _ _ _ _ _)
    ⟨f, hf, Query.eligible_ofLabel_iff.mpr hbears⟩ ?_
  rintro ⟨_, htie⟩
  have hone : (c.bearing kind key text asOf).length ≤ 1 := h.length_bearing_le_one
  have hle : (c.plainest kind key text asOf).length ≤ (c.bearing kind key text asOf).length :=
    List.length_filter_le _ _
  rw [Query.best_ofLabel] at htie
  omega

/-- A label that is no country finds nothing elsewhere. -/
theorem resolve_ofLabel_of_ne (h : key ≠ "country_code") :
    c.resolve (Query.ofLabel kind key text asOf ties) =
      (Query.ofLabel kind key text asOf ties).resolve (c.ofKind kind) := by
  apply resolve_of_no_country
  simp [Query.condition?, Query.ofLabel, h]

section Country

theorem restOfWorld?_ofLabel :
    (Query.ofLabel kind "country_code" code asOf ties).restOfWorld? =
      if code = Country.restOfWorld then none
      else some (Query.ofLabel kind "country_code" Country.restOfWorld asOf ties) := by
  have hcondition : (Query.ofLabel kind "country_code" code asOf ties).condition? "country_code" =
      some ⟨"country_code", .text code, .required⟩ := by
    simp [Query.condition?, Query.ofLabel]
  by_cases hcode : code = Country.restOfWorld
  · rw [if_pos hcode, Query.restOfWorld?, hcondition]
    exact if_pos (congrArg some hcode)
  · have hne : (Label.text code).text? ≠ some Country.restOfWorld :=
      fun h => hcode (Option.some.inj h)
    rw [if_neg hcode, Query.restOfWorld?_eq_some hcondition hne]
    simp [Query.elsewhere, Query.add, Query.ofLabel]

/-- A country finds its own factor, or else that of the rest of the world. -/
theorem resolve_country :
    c.resolve (Query.ofLabel kind "country_code" code asOf ties) =
      ((Query.ofLabel kind "country_code" code asOf ties).resolve (c.ofKind kind)).or
        (((Query.ofLabel kind "country_code" Country.restOfWorld asOf ties).resolve
          (c.ofKind kind)).map Resolution.asFallback) := by
  have hkind : (Query.ofLabel kind "country_code" code asOf ties).kind = kind := rfl
  rw [resolve, hkind]
  cases hown : (Query.ofLabel kind "country_code" code asOf ties).resolve (c.ofKind kind) with
  | some r =>
    rw [Query.resolveAnywhere_of_isSome (by rw [hown, Option.isSome_some]), hown, Option.some_or]
  | none =>
    rw [Query.resolveAnywhere_of_eq_none hown, restOfWorld?_ofLabel, Option.none_or]
    by_cases hcode : code = Country.restOfWorld
    · -- The rest of the world has nothing to stand in for it.
      rw [if_pos hcode, ← hcode, hown]
      rfl
    · rw [if_neg hcode, Option.bind_some]

/-- A factor that is found for the rest of the world is enough for every country. -/
theorem isSome_resolve_country (h : ((Query.ofLabel kind "country_code" Country.restOfWorld asOf
      ties).resolve (c.ofKind kind)).isSome = true) :
    (c.resolve (Query.ofLabel kind "country_code" code asOf ties)).isSome = true := by
  rw [resolve_country, Option.isSome_or, Option.isSome_map, h, Bool.or_true]

/-- A query for a country falls back on the rest of the world when no factor bears its code. -/
theorem factor_resolve_country :
    (c.resolve (Query.ofLabel kind "country_code" code asOf .takeFirst)).map (·.factor) =
      (c.plainest kind "country_code" code asOf).head?.or
        (c.plainest kind "country_code" Country.restOfWorld asOf).head? := by
  have hfirst (code : String) :
      ((Query.ofLabel kind "country_code" code asOf .takeFirst).resolve (c.ofKind kind)).map
        (·.factor) = (c.plainest kind "country_code" code asOf).head? := by
    rw [resolve_ofLabel]
    cases c.plainest kind "country_code" code asOf with
    | nil => rfl
    | cons f others => simp
  have hasFallback : (fun r : Resolution => r.factor) ∘ Resolution.asFallback = (·.factor) := rfl
  rw [resolve_country, Option.map_or, Option.map_map, hasFallback, hfirst, hfirst]

end Country

end Catalog

/-- A query for one label, under a basis. The basis decides on ties. -/
theorem Basis.resolve_require (b : Basis) (kind : EmissionKind) (key text : String) :
    b.resolve ((Query.all kind).require key (.text text)) =
      b.catalog.resolve (.ofLabel kind key text b.asOf b.settings.ties) := by
  have hadjust : b.adjust ((Query.all kind).require key (.text text)) =
      .ofLabel kind key text b.asOf b.settings.ties := by
    have hasOf : b.asOf.or none = b.asOf := Option.or_none
    have hties : (if b.settings.ties = .refuse then .refuse else TiePolicy.takeFirst) =
        b.settings.ties := by
      cases b.settings.ties <;> rfl
    simp only [adjust, Query.all, Query.require, Query.add, hasOf, hties]
    rfl
  rw [resolve, hadjust]

end CarbonLedger
