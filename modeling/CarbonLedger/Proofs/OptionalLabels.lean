import CarbonLedger.Proofs.CatalogRuns
import CarbonLedger.Proofs.RestOfWorld

namespace CarbonLedger
namespace Factor

def Carries (f : Factor) (texts : List (String × String)) : Prop :=
  ∀ e ∈ texts, f.classification.get? e.1 = some (.text e.2)

/-- A factor with given texts under their keys and with no other labels. -/
structure CarriesJust (f : Factor) (texts : List (String × String)) : Prop where
  carries : f.Carries texts
  noOther : ∀ e ∈ f.classification.entries, e.1 ∈ texts.map (·.1)

section Texts
variable {f g : Factor} {texts : List (String × String)}

theorem carries_iff_all :
    f.Carries texts ↔ ∀ e ∈ texts, (f.classification.get? e.1).any (· == .text e.2) = true := by
  refine forall₂_congr fun e _ => ?_
  cases f.classification.get? e.1 with
  | none => simp
  | some v => rw [Option.any_some, Label.beq_text_iff, Option.some.injEq]

instance (f : Factor) (texts : List (String × String)) : Decidable (f.Carries texts) :=
  decidable_of_iff _ carries_iff_all.symm

instance (f : Factor) (texts : List (String × String)) : Decidable (f.CarriesJust texts) :=
  decidable_of_iff _ ⟨fun h => ⟨h.1, h.2⟩, fun h => And.intro h.carries h.noOther⟩

theorem Carries.keys_subset (h : f.Carries texts) :
    texts.map (·.1) ⊆ f.classification.entries.map (·.1) := by
  intro key hkey
  obtain ⟨e, he, rfl⟩ := List.mem_map.mp hkey
  exact List.mem_map_of_mem (f := (·.1)) (KeyMap.get?_eq_some_iff.mp (h e he))

/-- A factor has no labels beyond the texts that it carries exactly if it has no more of them. -/
theorem carriesJust_iff (hkeys : (texts.map (·.1)).Nodup) :
    f.CarriesJust texts ↔ f.Carries texts ∧ f.classification.size = texts.length := by
  have hsize : f.classification.size = texts.length ↔
      (f.classification.entries.map (·.1)).length = (texts.map (·.1)).length := by
    rw [List.length_map, List.length_map, KeyMap.size]
  rw [hsize]
  constructor
  · intro h
    have hperm : (f.classification.entries.map (·.1)).Perm (texts.map (·.1)) := by
      rw [List.perm_ext_iff_of_nodup f.classification.nodup_keys hkeys]
      intro key
      refine ⟨?_, fun hkey => h.carries.keys_subset hkey⟩
      intro hkey
      obtain ⟨e, he, rfl⟩ := List.mem_map.mp hkey
      exact h.noOther e he
    exact ⟨h.carries, hperm.length_eq⟩
  · rintro ⟨hcarries, hlength⟩
    have hperm : (texts.map (·.1)).Perm (f.classification.entries.map (·.1)) :=
      (List.subperm_of_subset hkeys hcarries.keys_subset).perm_of_length_le (Nat.le_of_eq hlength)
    exact ⟨hcarries, fun e he => hperm.mem_iff.mpr (List.mem_map_of_mem he)⟩

/-- Factors of one kind with the same texts and no other labels are versions of each other. -/
theorem sharesSlot_of_carriesJust (hkeys : (texts.map (·.1)).Nodup) (hkind : f.kind = g.kind)
    (hf : f.CarriesJust texts) (hg : g.CarriesJust texts) : f.sharesSlot g = true := by
  rw [sharesSlot, Bool.and_eq_true, beq_iff_eq]
  refine ⟨hkind, ?_⟩
  apply KeyMap.beq_of_get?
  · rw [((carriesJust_iff hkeys).mp hf).2, ((carriesJust_iff hkeys).mp hg).2]
  · intro e he
    obtain ⟨t, ht, hkey⟩ := List.mem_map.mp (hg.noOther e he)
    have hget := KeyMap.get?_eq_some_iff.mpr he
    rw [← hkey, hg.carries t ht, Option.some.injEq] at hget
    refine ⟨.text t.2, hkey ▸ hf.carries t ht, ?_⟩
    rw [← hget]
    exact Label.beq_text_iff.mpr rfl

end Texts

end Factor

/-- A current factor is the only best one if it has just some texts, all of which the query meets,
and if no eligible factor meets more, and none as many without having these texts. -/
theorem Query.best_of_carriesJust {q : Query} (hq : q.keys.Nodup) (hnow : q.asOf = none)
    {candidates : List Factor} (hone : Catalog.OneCurrent candidates) {v : Factor}
    (hv : v ∈ candidates) (heligible : q.Eligible v) {texts : List (String × String)}
    (hkeys : (texts.map (·.1)).Nodup) (hjust : v.CarriesJust texts)
    (hmatched : q.matched v = texts.length)
    (hmost : ∀ f ∈ candidates, q.Eligible f → q.matched f ≤ texts.length)
    (hcarries : ∀ f ∈ candidates, q.Eligible f → q.matched f = texts.length → f.Carries texts) :
    q.best candidates = [v] := by
  have hbare : q.unmatched v = 0 := by
    have hsize := matched_add_unmatched hq v
    rw [hmatched, ((Factor.carriesJust_iff hkeys).mp hjust).2] at hsize
    omega
  have hbest {f : Factor} (hf : f ∈ candidates) := isBest_iff_of_bare hv heligible hbare
    (fun g hg hge => hmatched ▸ hmost g hg hge) hf
  -- Whoever is best has just the same texts, and so is in the same slot.
  have hall : ∀ f ∈ q.best candidates, q.Eligible f ∧ f.CarriesJust texts := by
    intro f hf
    obtain ⟨hf, hfbest⟩ := mem_best_iff.mp hf
    obtain ⟨hfe, hfm, hfu⟩ := (hbest hf).mp hfbest
    rw [hmatched] at hfm
    have hsize := matched_add_unmatched hq f
    rw [hfm, hfu] at hsize
    exact ⟨hfe, (Factor.carriesJust_iff hkeys).mpr ⟨hcarries f hf hfe hfm, hsize.symm⟩⟩
  apply Catalog.OneCurrent.eq_singleton (hone.sublist List.filter_sublist)
  · exact mem_best_iff.mpr ⟨hv, (hbest hv).mpr ⟨heligible, rfl, hbare⟩⟩
  · intro f hf
    exact Option.isNone_iff_eq_none.mpr ((hall f hf).1.current hnow)
  · intro f hf g hg
    exact Factor.sharesSlot_of_carriesJust hkeys ((hall f hf).1.kind.trans (hall g hg).1.kind.symm)
      (hall f hf).2 (hall g hg).2

namespace Query

/-- The query for a current factor with some texts, and with one more if there is such a factor. -/
def ofTexts (kind : EmissionKind) (required : List (String × String)) (optional : String × String)
    (ties : TiePolicy) : Query :=
  ⟨kind, required.map (fun e => ⟨e.1, .text e.2, .required⟩) ++
    [⟨optional.1, .text optional.2, .refining⟩], none, ties⟩

section Texts
variable {kind : EmissionKind} {required : List (String × String)} {optional : String × String}
  {ties : TiePolicy} {f : Factor}

theorem nodup_keys_ofTexts (h : ((required ++ [optional]).map (·.1)).Nodup) :
    (ofTexts kind required optional ties).keys.Nodup := by
  have hkeys : (ofTexts kind required optional ties).keys = (required ++ [optional]).map (·.1) := by
    simp [keys, ofTexts]
  exact hkeys ▸ h

theorem length_conditions_ofTexts (kind : EmissionKind) (required : List (String × String))
    (optional : String × String) (ties : TiePolicy) :
    (ofTexts kind required optional ties).conditions.length = required.length + 1 := by
  simp [ofTexts]

/-- Eligible factors carry all required labels, and the optional one or none in its place. -/
theorem eligible_ofTexts_iff : (ofTexts kind required optional ties).Eligible f ↔
    f.kind = kind ∧ f.isCurrent = true ∧ f.Carries required ∧
      ∀ v, f.classification.get? optional.1 = some v → v = .text optional.2 := by
  have hopt : (⟨optional.1, .text optional.2, .refining⟩ : Condition) ∈
      (ofTexts kind required optional ties).conditions :=
    List.mem_append_right _ List.mem_cons_self
  have hreq : ∀ e ∈ required, (⟨e.1, .text e.2, .required⟩ : Condition) ∈
      (ofTexts kind required optional ties).conditions :=
    fun e he => List.mem_append_left _ (List.mem_map_of_mem he)
  constructor
  · intro h
    refine ⟨h.kind, Option.isNone_iff_eq_none.mpr (h.current rfl), ?_, ?_⟩
    · intro e he
      exact Condition.metBy_text_iff.mp (Condition.metBy_iff.mpr (h.required _ (hreq e he) rfl))
    · exact fun v hv => Label.beq_text_iff.mp (h.agrees _ hopt v hv)
  · rintro ⟨hkind, hcurrent, hcarries, hagrees⟩
    refine ⟨hkind, fun _ => Option.isNone_iff_eq_none.mp hcurrent, ?_, ?_, ?_⟩
    · intro t ht
      cases ht
    · intro d hd hrole
      rcases List.mem_append.mp hd with hd | hd
      · obtain ⟨e, he, rfl⟩ := List.mem_map.mp hd
        exact ⟨_, hcarries e he, Label.beq_text_iff.mpr rfl⟩
      · rw [List.mem_singleton.mp hd] at hrole
        cases hrole
    · intro d hd v hv
      rcases List.mem_append.mp hd with hd | hd
      · obtain ⟨e, he, rfl⟩ := List.mem_map.mp hd
        rw [hcarries e he, Option.some.injEq] at hv
        exact Label.beq_text_iff.mpr hv.symm
      · rw [List.mem_singleton.mp hd] at hv ⊢
        exact Label.beq_text_iff.mpr (hagrees v hv)

/-- Required texts are met by whatever may be found, so only the optional one makes a difference. -/
theorem matched_ofTexts (h : f.Carries required) :
    (ofTexts kind required optional ties).matched f = required.length +
      if Condition.metBy ⟨optional.1, .text optional.2, .refining⟩ f.classification then 1
      else 0 := by
  have hrequired : (required.map fun e => (⟨e.1, .text e.2, .required⟩ : Condition)).countP
      (fun d => d.metBy f.classification) = required.length := by
    rw [← List.length_map (f := fun e => (⟨e.1, .text e.2, .required⟩ : Condition)),
      List.countP_eq_length]
    intro d hd
    obtain ⟨e, he, rfl⟩ := List.mem_map.mp hd
    exact Condition.metBy_text_iff.mpr (h e he)
  rw [matched, ofTexts, List.countP_append, hrequired, List.countP_singleton]

theorem matched_ofTexts_of_carries (h : f.Carries (required ++ [optional])) :
    (ofTexts kind required optional ties).matched f = required.length + 1 := by
  obtain ⟨hrequired, hoptional⟩ := List.forall_mem_append.mp h
  rw [matched_ofTexts hrequired, if_pos]
  exact Condition.metBy_text_iff.mpr (hoptional optional List.mem_cons_self)

theorem matched_ofTexts_of_not_carries (h : f.Carries required)
    (hnot : ¬ f.Carries (required ++ [optional])) :
    (ofTexts kind required optional ties).matched f = required.length := by
  rw [matched_ofTexts h, if_neg, Nat.add_zero]
  intro hmet
  refine hnot (List.forall_mem_append.mpr ⟨h, ?_⟩)
  rw [List.forall_mem_singleton]
  exact Condition.metBy_text_iff.mp hmet

end Texts

section Best
variable {kind : EmissionKind} {required : List (String × String)} {optional : String × String}
  {ties : TiePolicy} {candidates : List Factor} {v : Factor}

/-- What has just all texts is the only best candidate. -/
theorem best_ofTexts_exact (hkeys : ((required ++ [optional]).map (·.1)).Nodup)
    (hone : Catalog.OneCurrent candidates) (hv : v ∈ candidates) (hkind : v.kind = kind)
    (hcurrent : v.isCurrent = true) (hjust : v.CarriesJust (required ++ [optional])) :
    (ofTexts kind required optional ties).best candidates = [v] := by
  obtain ⟨hrequired, hoptional⟩ := List.forall_mem_append.mp hjust.carries
  have heligible : (ofTexts kind required optional ties).Eligible v := by
    refine eligible_ofTexts_iff.mpr ⟨hkind, hcurrent, hrequired, ?_⟩
    intro w hw
    rw [hoptional optional List.mem_cons_self, Option.some.injEq] at hw
    exact hw.symm
  have hlength : (required ++ [optional]).length = required.length + 1 := by
    rw [List.length_append, List.length_singleton]
  apply best_of_carriesJust (nodup_keys_ofTexts hkeys) rfl hone hv heligible hkeys hjust
  · rw [matched_ofTexts_of_carries hjust.carries, hlength]
  · intro f _ _
    rw [hlength, ← length_conditions_ofTexts kind required optional ties]
    exact List.countP_le_length
  · -- Without the optional text a factor meets the required ones and no more.
    intro f _ hfe hmatched
    by_contra hnot
    have hless : (ofTexts kind required optional ties).matched f = required.length :=
      matched_ofTexts_of_not_carries (eligible_ofTexts_iff.mp hfe).2.2.1 hnot
    omega

/-- Where nothing has all texts, what has just the required ones is the only best candidate. -/
theorem best_ofTexts_generic (hkeys : ((required ++ [optional]).map (·.1)).Nodup)
    (hone : Catalog.OneCurrent candidates)
    (hnone : ∀ f ∈ candidates, f.kind = kind → f.isCurrent = true →
      ¬ f.Carries (required ++ [optional]))
    (hv : v ∈ candidates) (hkind : v.kind = kind) (hcurrent : v.isCurrent = true)
    (hjust : v.CarriesJust required) :
    (ofTexts kind required optional ties).best candidates = [v] := by
  have hnodup := hkeys
  rw [List.map_append, List.nodup_append] at hnodup
  have heligible : (ofTexts kind required optional ties).Eligible v := by
    refine eligible_ofTexts_iff.mpr ⟨hkind, hcurrent, hjust.carries, ?_⟩
    intro w hw
    have hkey := hjust.noOther _ (KeyMap.get?_eq_some_iff.mp hw)
    exact absurd rfl (hnodup.2.2 _ hkey _ List.mem_cons_self)
  have hmatched : ∀ f ∈ candidates, (ofTexts kind required optional ties).Eligible f →
      (ofTexts kind required optional ties).matched f = required.length := by
    intro f hf hfe
    obtain ⟨hfk, hfc, hfr, _⟩ := eligible_ofTexts_iff.mp hfe
    exact matched_ofTexts_of_not_carries hfr (hnone f hf hfk hfc)
  apply best_of_carriesJust (nodup_keys_ofTexts hkeys) rfl hone hv heligible hnodup.1 hjust
  · exact hmatched v hv heligible
  · exact fun f hf hfe => Nat.le_of_eq (hmatched f hf hfe)
  · exact fun f _ hfe _ => (eligible_ofTexts_iff.mp hfe).2.2.1

end Best

end Query

namespace Catalog

section Texts
variable {c : Catalog} {kind : EmissionKind} {required : List (String × String)}
  {optional : String × String} {ties : TiePolicy} {f : Factor}
  (hcountry : (Query.ofTexts kind required optional ties).condition? "country_code" = none)
  (hkeys : ((required ++ [optional]).map (·.1)).Nodup) (hone : OneCurrent c.factors)
include hcountry hkeys

theorem resolve_ofTexts_of_best
    (h : (Query.ofTexts kind required optional ties).best (c.ofKind kind) = [f]) :
    c.resolve (.ofTexts kind required optional ties) =
      some ⟨f, (Query.ofTexts kind required optional ties).matched f,
        (Query.ofTexts kind required optional ties).matched f < required.length + 1, []⟩ := by
  rw [← Query.length_conditions_ofTexts kind required optional ties]
  exact (resolve_of_no_country hcountry).trans
    (Query.resolve_of_best (Query.nodup_keys_ofTexts hkeys) h)

include hone

/-- A factor with just the labels asked for is the one found. -/
theorem resolve_ofTexts_exact (hf : f ∈ c.factors) (hkind : f.kind = kind)
    (hcurrent : f.isCurrent = true) (hjust : f.CarriesJust (required ++ [optional])) :
    c.resolve (.ofTexts kind required optional ties) =
      some ⟨f, required.length + 1, false, []⟩ := by
  have hcandidate : f ∈ c.ofKind kind := mem_ofKind.mpr ⟨hf, hkind⟩
  have hbest : (Query.ofTexts kind required optional ties).best (c.ofKind kind) = [f] :=
    Query.best_ofTexts_exact hkeys (hone.filter _) hcandidate hkind hcurrent hjust
  rw [resolve_ofTexts_of_best hcountry hkeys hbest, Query.matched_ofTexts_of_carries hjust.carries]
  simp

/-- With no factor for the optional label, the one without it is found. -/
theorem resolve_ofTexts_generic
    (hnone : ∀ g ∈ c.factors, g.kind = kind → g.isCurrent = true →
      ¬ g.Carries (required ++ [optional]))
    (hf : f ∈ c.factors) (hkind : f.kind = kind) (hcurrent : f.isCurrent = true)
    (hjust : f.CarriesJust required) :
    c.resolve (.ofTexts kind required optional ties) = some ⟨f, required.length, true, []⟩ := by
  have hcandidate : f ∈ c.ofKind kind := mem_ofKind.mpr ⟨hf, hkind⟩
  have hbest : (Query.ofTexts kind required optional ties).best (c.ofKind kind) = [f] :=
    Query.best_ofTexts_generic hkeys (hone.filter _) (fun g hg => hnone g (mem_ofKind.mp hg).1)
      hcandidate hkind hcurrent hjust
  rw [resolve_ofTexts_of_best hcountry hkeys hbest,
    Query.matched_ofTexts_of_not_carries hjust.carries (hnone f hf hkind hcurrent)]
  simp

omit hkeys hone in
theorem eligible_of_resolve_ofTexts {r : Resolution}
    (h : c.resolve (.ofTexts kind required optional ties) = some r) :
    r.factor ∈ c.factors ∧ r.factor.kind = kind ∧ r.factor.isCurrent = true ∧
      r.factor.Carries required ∧
      ∀ v, r.factor.classification.get? optional.1 = some v → v = .text optional.2 := by
  rw [resolve_of_no_country hcountry] at h
  obtain ⟨hfound, heligible⟩ := Query.eligible_of_resolve h
  exact ⟨(mem_ofKind.mp hfound).1, Query.eligible_ofTexts_iff.mp heligible⟩

end Texts

end Catalog

inductive Narrowable
  | equipment (submodule equipmentClass : String)
  | headcount
  | externalCloud (provider : String)
  | externalAi (provider : String)

namespace Narrowable

def kind : Narrowable → EmissionKind
  | .equipment .. => .equipment
  | .headcount => .headcount
  | .externalCloud _ => .externalCloud
  | .externalAi _ => .externalAi

def required : Narrowable → List (String × String)
  | .equipment submodule equipmentClass => [("submodule", submodule), ("class", equipmentClass)]
  | .headcount => []
  | .externalCloud provider => [("provider", provider)]
  | .externalAi provider => [("provider", provider)]

def key : Narrowable → String
  | .equipment .. => "sub_class"
  | .headcount => "category"
  | .externalCloud _ => "service"
  | .externalAi _ => "use_case"

def query : Narrowable → Option String → Query
  | .equipment submodule equipmentClass => Query.equipment submodule equipmentClass
  | .headcount => Query.headcount
  | .externalCloud provider => Query.externalCloud provider
  | .externalAi provider => Query.externalAi provider

variable {n : Narrowable}

theorem query_eq {text : String} (h : Text.isBlank text = false) (ties : TiePolicy) :
    { n.query (some text) with ties := ties } =
      Query.ofTexts n.kind n.required (n.key, Text.trim text) ties := by
  have hfilled : Text.filled? text = some (Text.trim text) := by simp [Text.filled?, h]
  cases n <;> simp [query, Query.equipment, Query.headcount, Query.externalCloud,
    Query.externalAi, Query.refineText, hfilled, Query.require, Query.refine, Query.add, Query.all,
    Query.ofTexts, kind, required, key]

theorem nodup_keys (n : Narrowable) (text : String) :
    ((n.required ++ [(n.key, text)]).map (·.1)).Nodup := by
  cases n <;> simp [required, key]

theorem no_country (n : Narrowable) (text : String) (ties : TiePolicy) :
    (Query.ofTexts n.kind n.required (n.key, text) ties).condition? "country_code" = none := by
  cases n <;> simp [Query.ofTexts, Query.condition?, required, key]

end Narrowable

namespace Catalog

/-- A query that an optional text narrows. A current factor with just all its texts is found, and it
has no rivals. Where no current factor has all of them, one with just the required ones is found in
its stead, again without rivals. What is found never has another label under one of the keys. -/
theorem exact_beats_generic (calls : List Call) (n : Narrowable) {text : String}
    (hfilled : Text.isBlank text = false) (ties : TiePolicy) :
    let c := afterCalls calls
    let q := { n.query (some text) with ties := ties }
    let texts := n.required ++ [(n.key, Text.trim text)]
    (∀ f ∈ c.factors, f.kind = n.kind → f.isCurrent = true → f.CarriesJust texts →
      c.resolve q = some ⟨f, n.required.length + 1, false, []⟩) ∧
    ((∀ f ∈ c.factors, f.kind = n.kind → f.isCurrent = true → ¬ f.Carries texts) →
      ∀ g ∈ c.factors, g.kind = n.kind → g.isCurrent = true → g.CarriesJust n.required →
        c.resolve q = some ⟨g, n.required.length, true, []⟩) ∧
    ∀ r, c.resolve q = some r → r.factor ∈ c.factors ∧ r.factor.kind = n.kind ∧
      r.factor.isCurrent = true ∧ r.factor.Carries n.required ∧
      ∀ v, r.factor.classification.get? n.key = some v → v = .text (Text.trim text) := by
  intro c q texts
  have hq : q = .ofTexts n.kind n.required (n.key, Text.trim text) ties :=
    Narrowable.query_eq hfilled ties
  have hcountry := n.no_country (Text.trim text) ties
  have hkeys := n.nodup_keys (Text.trim text)
  have hone := oneCurrent_afterCalls calls
  rw [hq]
  refine ⟨?_, ?_, ?_⟩
  · exact fun f hf hkind hcurrent hjust =>
      resolve_ofTexts_exact hcountry hkeys hone hf hkind hcurrent hjust
  · exact fun hnone g hg hkind hcurrent hjust =>
      resolve_ofTexts_generic hcountry hkeys hone hnone hg hkind hcurrent hjust
  · exact fun r hr => eligible_of_resolve_ofTexts hcountry hr

def centrifuges (labels : List (String × Label)) : Draft :=
  ⟨.equipment, .ofList (("submodule", .text "scientific") ::
    ("class", .text "Centrifugation") :: labels), .empty, default⟩

/-- Ultra centrifuges have a factor of their own, which was replaced; there is no factor for rotors,
so the whole class stands in for them. -/
theorem ultra_centrifuges_and_rotors :
    let ultra := ("sub_class", Label.text "Ultra centrifuges")
    let calls := [Call.enter ((centrifuges [ultra]).toFactor 4),
      .enter ((centrifuges [("sub_class", .text "Benchtop")]).toFactor 1),
      .enter ((centrifuges [ultra, ("model", .text "X")]).toFactor 2),
      .enter ((centrifuges []).toFactor 3),
      .renew { centrifuges [ultra] with validFrom := ⟨500, 0⟩ }]
    let c := afterCalls calls
    let n := Narrowable.equipment "scientific" "Centrifugation"
    c.factors.map (fun f => (f.id, f.isCurrent)) =
        [(1, true), (2, true), (3, true), (4, false), (5, true)] ∧
      Text.isBlank " Ultra centrifuges " = false ∧
      (c.resolve { n.query (some " Ultra centrifuges ") with ties := .refuse }).map
        (fun r => (r.factor.id, r.fallback, r.rivals)) = some (5, false, []) ∧
      Text.isBlank "Rotors" = false ∧
      (c.resolve { n.query (some "Rotors") with ties := .refuse }).map
        (fun r => (r.factor.id, r.fallback, r.rivals)) = some (3, true, []) := by
  intro ultra calls c n
  have hfilled : Text.isBlank " Ultra centrifuges " = false := by decide
  have hrotors : Text.isBlank "Rotors" = false := by decide
  have hids : c.factors.map (fun f => (f.id, f.isCurrent)) =
      [(1, true), (2, true), (3, true), (4, false), (5, true)] := by decide +kernel
  obtain ⟨f, hf, hfk, hfc, hfj, hfid⟩ : ∃ f ∈ c.factors, f.kind = n.kind ∧ f.isCurrent = true ∧
      f.CarriesJust (n.required ++ [(n.key, Text.trim " Ultra centrifuges ")]) ∧ f.id = 5 := by
    decide +kernel
  obtain ⟨g, hg, hgk, hgc, hgj, hgid⟩ : ∃ g ∈ c.factors, g.kind = n.kind ∧ g.isCurrent = true ∧
      g.CarriesJust n.required ∧ g.id = 3 := by
    decide +kernel
  have hexact := (exact_beats_generic calls n hfilled .refuse).1 f hf hfk hfc hfj
  have hgeneric := (exact_beats_generic calls n hrotors .refuse).2.1 (by decide +kernel) g hg hgk
    hgc hgj
  refine ⟨hids, hfilled, ?_, hrotors, ?_⟩
  · rw [hexact, Option.map_some, hfid]
  · rw [hgeneric, Option.map_some, hgid]

end Catalog
end CarbonLedger
