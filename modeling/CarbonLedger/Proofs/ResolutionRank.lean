import CarbonLedger.Proofs.QueryKeys
import Mathlib.Tactic.ByContra

/-! Which factor a query finds. What the scan keeps is always the best of the candidates that were
taken, in their order. -/

namespace CarbonLedger

theorem Rank.beats_iff {a b : Rank} :
    a.beats b = true ↔ b.matched < a.matched ∨ a.matched = b.matched ∧ a.extra < b.extra := by
  simp [Rank.beats]

theorem Rank.beats_irrefl (a : Rank) : a.beats a = false := by
  simp [Rank.beats]

theorem Rank.beats_trans {a b c : Rank} (h : a.beats b = true) (k : b.beats c = true) :
    a.beats c = true := by
  rw [Rank.beats_iff] at *
  omega

/-- Two ranks of which neither beats the other are one. -/
theorem Rank.eq_of_not_beats {a b : Rank} (h : ¬ a.beats b = true) (k : ¬ b.beats a = true) :
    a = b := by
  rw [Rank.beats_iff] at *
  cases a
  cases b
  rw [Rank.mk.injEq]
  dsimp only at *
  omega

namespace Query

/-- The factors that a query may find: of its kind, in the window it asks for, with every required
label, and without a label that contradicts it. -/
structure Eligible (q : Query) (f : Factor) : Prop where
  kind : f.kind = q.kind
  current : q.asOf = none → f.validTo = none
  holds : ∀ t, q.asOf = some t → f.validFrom ≤ t ∧ ∀ e, f.validTo = some e → t < e
  required : ∀ d ∈ q.conditions, d.role = .required →
    ∃ v, f.classification.get? d.key = some v ∧ (v == d.value) = true
  agrees : ∀ d ∈ q.conditions, ∀ v, f.classification.get? d.key = some v → (v == d.value) = true

theorem inWindow_iff {q : Query} {f : Factor} :
    f.inWindow q.asOf = true ↔ (q.asOf = none → f.validTo = none) ∧
      ∀ t, q.asOf = some t → f.validFrom ≤ t ∧ ∀ e, f.validTo = some e → t < e := by
  cases q.asOf with
  | none => simp [Factor.inWindow, Factor.isCurrent]
  | some t => cases h : f.validTo <;> simp [Factor.inWindow, Factor.isValidAt, h]

/-- The factors that fit a query are the eligible ones. -/
theorem fits_iff_eligible {q : Query} {f : Factor} : q.fits f = true ↔ q.Eligible f := by
  rw [fits, Bool.and_eq_true, Bool.and_eq_true, beq_iff_eq, inWindow_iff, List.all_eq_true]
  constructor
  · rintro ⟨⟨hk, hc, hh⟩, ha⟩
    exact ⟨hk, hc, hh, fun d hd => (Condition.allows_iff.1 (ha d hd)).1,
      fun d hd => (Condition.allows_iff.1 (ha d hd)).2⟩
  · intro h
    exact ⟨⟨h.kind, h.current, h.holds⟩,
      fun d hd => Condition.allows_iff.2 ⟨h.required d hd, h.agrees d hd⟩⟩

instance (q : Query) (f : Factor) : Decidable (q.Eligible f) :=
  decidable_of_iff _ fits_iff_eligible

/-- A factor is preferred to another if it meets more conditions, or as many with fewer labels
beyond them. -/
def Prefers (q : Query) (g f : Factor) : Prop :=
  q.matched f < q.matched g ∨ q.matched f = q.matched g ∧ q.unmatched g < q.unmatched f

instance (q : Query) (g f : Factor) : Decidable (q.Prefers g f) :=
  inferInstanceAs (Decidable (_ ∨ _))

def IsBest (q : Query) (candidates : List Factor) (f : Factor) : Prop :=
  q.Eligible f ∧ ∀ g ∈ candidates, q.Eligible g → ¬ q.Prefers g f

instance (q : Query) (candidates : List Factor) (f : Factor) :
    Decidable (q.IsBest candidates f) :=
  inferInstanceAs (Decidable (_ ∧ _))

def best (q : Query) (candidates : List Factor) : List Factor :=
  candidates.filter fun f => q.IsBest candidates f

/-- The best factors are the candidates to which no other is preferred. -/
theorem mem_best_iff {q : Query} {candidates : List Factor} {f : Factor} :
    f ∈ q.best candidates ↔ f ∈ candidates ∧ q.IsBest candidates f := by
  rw [best, List.mem_filter, decide_eq_true_iff]

theorem rank?_eq_none_iff {q : Query} {f : Factor} : q.rank? f = none ↔ ¬ q.Eligible f := by
  rw [rank?, ← fits_iff_eligible]
  split <;> simp_all

theorem rank?_of_eligible {q : Query} (hk : q.keys.Nodup) {f : Factor} (h : q.Eligible f) :
    q.rank? f = some ⟨q.matched f, q.unmatched f⟩ := by
  have hsize := matched_add_unmatched hk f
  have hextra : f.classification.size - q.matched f = q.unmatched f := by omega
  rw [rank?, if_pos (fits_iff_eligible.2 h), hextra]

theorem eligible_of_rank? {q : Query} {f : Factor} {r : Rank} (h : q.rank? f = some r) :
    q.Eligible f := by
  by_contra hn
  rw [rank?_eq_none_iff.2 hn] at h
  cases h

def Unbeaten (q : Query) (taken : List Factor) (r : Rank) : Prop :=
  ∀ g ∈ taken, ∀ s, q.rank? g = some s → ¬ s.beats r = true

def holders (q : Query) (taken : List Factor) (r : Rank) : List Factor :=
  taken.filter fun g => q.rank? g = some r

/-- What is kept of the candidates taken so far: nothing if none of them fits, or else all holders
of a rank that none beats. -/
def Keeps (q : Query) (taken : List Factor) : Option Lead → Prop
  | none => ∀ g ∈ taken, q.rank? g = none
  | some l => q.holders taken l.rank = l.first :: l.others ∧ q.Unbeaten taken l.rank

section Meeting
variable {q : Query} {taken : List Factor} {f : Factor} {r : Rank}

theorem unbeaten_append (h : q.Unbeaten taken r)
    (hf : ∀ s, q.rank? f = some s → ¬ s.beats r = true) : q.Unbeaten (taken ++ [f]) r := by
  intro g hg
  rcases List.mem_append.mp hg with hg | hg
  · exact h g hg
  · rw [List.mem_singleton.mp hg]
    exact hf

theorem holders_append_of_eq (hf : q.rank? f = some r) :
    q.holders (taken ++ [f]) r = q.holders taken r ++ [f] := by
  rw [holders, List.filter_append, holders, List.filter_cons_of_pos (by simp [hf]), List.filter_nil]

theorem holders_append_of_ne (hf : q.rank? f ≠ some r) :
    q.holders (taken ++ [f]) r = q.holders taken r := by
  rw [holders, List.filter_append, holders, List.filter_cons_of_neg (by simp [hf]), List.filter_nil,
    List.append_nil]

theorem holders_eq_nil (h : ∀ g ∈ taken, q.rank? g ≠ some r) : q.holders taken r = [] := by
  apply List.filter_eq_nil_iff.mpr
  intro g hg
  simpa using h g hg

/-- A factor that does not fit changes nothing. -/
theorem keeps_unfit {lead : Option Lead} (h : q.Keeps taken lead) (hf : q.rank? f = none) :
    q.Keeps (taken ++ [f]) lead := by
  cases lead with
  | none =>
    intro g hg
    rcases List.mem_append.mp hg with hg | hg
    · exact h g hg
    · rw [List.mem_singleton.mp hg, hf]
  | some l =>
    have hne : q.rank? f ≠ some l.rank := by simp [hf]
    refine ⟨(holders_append_of_ne hne).trans h.1, unbeaten_append h.2 ?_⟩
    intro s hs
    rw [hf] at hs
    cases hs

/-- The first factor that fits takes the lead. -/
theorem keeps_first (h : q.Keeps taken none) (hf : q.rank? f = some r) :
    q.Keeps (taken ++ [f]) (some ⟨r, f, []⟩) := by
  have hnone : q.holders taken r = [] := by
    apply holders_eq_nil
    intro g hg
    simp [h g hg]
  refine ⟨?_, unbeaten_append ?_ ?_⟩
  · rw [holders_append_of_eq hf, hnone, List.nil_append]
  · intro g hg s hs
    rw [h g hg] at hs
    cases hs
  · intro s hs
    rw [hf, Option.some.injEq] at hs
    simp [← hs, Rank.beats_irrefl]

/-- A factor of lower rank changes nothing. -/
theorem keeps_beaten {l : Lead} (h : q.Keeps taken (some l)) (hf : q.rank? f = some r)
    (hlr : l.rank.beats r = true) : q.Keeps (taken ++ [f]) (some l) := by
  have hne : q.rank? f ≠ some l.rank := by
    intro he
    rw [hf, Option.some.injEq] at he
    simp [he, Rank.beats_irrefl] at hlr
  refine ⟨(holders_append_of_ne hne).trans h.1, unbeaten_append h.2 ?_⟩
  intro s hs hsl
  rw [hf, Option.some.injEq] at hs
  have hrr := Rank.beats_trans (hs ▸ hsl) hlr
  simp [Rank.beats_irrefl] at hrr

/-- A factor of equal rank becomes a rival of the leading one. -/
theorem keeps_equal {l : Lead} (h : q.Keeps taken (some l)) (hf : q.rank? f = some l.rank) :
    q.Keeps (taken ++ [f]) (some { l with others := l.others ++ [f] }) := by
  refine ⟨?_, unbeaten_append h.2 ?_⟩
  · rw [holders_append_of_eq hf, h.1, List.cons_append]
  · intro s hs
    rw [hf, Option.some.injEq] at hs
    simp [← hs, Rank.beats_irrefl]

/-- A factor of higher rank takes the lead, without rivals. -/
theorem keeps_better {l : Lead} (h : q.Keeps taken (some l)) (hf : q.rank? f = some r)
    (hrl : r.beats l.rank = true) : q.Keeps (taken ++ [f]) (some ⟨r, f, []⟩) := by
  -- Who held the new rank before would have beaten the leader of then.
  have hnone : q.holders taken r = [] := by
    apply holders_eq_nil
    intro g hg hr
    exact h.2 g hg r hr hrl
  refine ⟨?_, unbeaten_append ?_ ?_⟩
  · rw [holders_append_of_eq hf, hnone, List.nil_append]
  · intro g hg s hs hsr
    exact h.2 g hg s hs (Rank.beats_trans hsr hrl)
  · intro s hs
    rw [hf, Option.some.injEq] at hs
    simp [← hs, Rank.beats_irrefl]

/-- One more candidate: what is kept stays the best of all that were taken. -/
theorem keeps_meet {lead : Option Lead} (h : q.Keeps taken lead) (f : Factor) :
    q.Keeps (taken ++ [f]) (q.meet lead f) := by
  unfold meet
  split
  · next hf => exact keeps_unfit h hf
  · next r hf => exact keeps_first h hf
  · next r l hf =>
    split
    · next hlr => exact keeps_beaten h hf hlr
    · next hlr =>
      split
      · next he => exact keeps_equal h (he ▸ hf)
      · next hne =>
        have hrl : r.beats l.rank = true := by
          by_contra hn
          exact hne (Rank.eq_of_not_beats hlr hn)
        exact keeps_better h hf hrl

end Meeting

/-- What is kept in the end is the best of all candidates. -/
theorem keeps_lead (q : Query) (candidates : List Factor) :
    q.Keeps candidates (q.lead candidates) := by
  -- The scan may have begun: `taken` is behind it and `rest` before it.
  have h (taken rest : List Factor) (lead : Option Lead) (hk : q.Keeps taken lead) :
      q.Keeps (taken ++ rest) (rest.foldl q.meet lead) := by
    induction rest generalizing taken lead with
    | nil => simpa using hk
    | cons f rest ih => simpa using ih (taken ++ [f]) (q.meet lead f) (keeps_meet hk f)
  exact h [] candidates none (by simp [Keeps])

theorem first_of_keeps {q : Query} {candidates : List Factor} {l : Lead}
    (h : q.Keeps candidates (some l)) :
    l.first ∈ candidates ∧ q.rank? l.first = some l.rank := by
  have hfirst : l.first ∈ q.holders candidates l.rank := by
    rw [h.1]
    exact List.mem_cons_self
  obtain ⟨hmem, hrank⟩ := List.mem_filter.mp hfirst
  exact ⟨hmem, of_decide_eq_true hrank⟩

theorem prefers_iff_beats {q : Query} (hk : q.keys.Nodup) {f g : Factor} {r s : Rank}
    (hf : q.rank? f = some r) (hg : q.rank? g = some s) :
    q.Prefers g f ↔ s.beats r = true := by
  rw [rank?_of_eligible hk (eligible_of_rank? hf), Option.some.injEq] at hf
  rw [rank?_of_eligible hk (eligible_of_rank? hg), Option.some.injEq] at hg
  rw [← hf, ← hg, Rank.beats_iff, Prefers]
  dsimp only
  omega

/-- The best candidates are those that hold the rank that is kept. -/
theorem isBest_iff {q : Query} (hk : q.keys.Nodup) {candidates : List Factor} {l : Lead}
    (h : q.Keeps candidates (some l)) {f : Factor} (hf : f ∈ candidates) :
    q.IsBest candidates f ↔ q.rank? f = some l.rank := by
  constructor
  · rintro ⟨he, hpref⟩
    have hr := rank?_of_eligible hk he
    obtain ⟨hmem, hl⟩ := first_of_keeps h
    -- Neither of the two ranks beats the other: one is kept, the other is that of a best candidate.
    have hlr := mt (prefers_iff_beats hk hr hl).mpr (hpref _ hmem (eligible_of_rank? hl))
    rw [hr, Rank.eq_of_not_beats (h.2 f hf _ hr) hlr]
  · intro hr
    refine ⟨eligible_of_rank? hr, ?_⟩
    intro g hg hge hpref
    have hs := rank?_of_eligible hk hge
    exact h.2 g hg _ hs ((prefers_iff_beats hk hr hs).mp hpref)

/-- The factors that lead in the end are all the best candidates, in their order. -/
theorem best_eq_lead {q : Query} (hk : q.keys.Nodup) {candidates : List Factor} {l : Lead}
    (h : q.lead candidates = some l) : q.best candidates = l.first :: l.others := by
  have hkeep := keeps_lead q candidates
  rw [h] at hkeep
  rw [← hkeep.1]
  apply List.filter_congr
  intro f hf
  rw [decide_eq_decide]
  exact isBest_iff hk hkeep hf

/-- No factor leads when none is eligible. -/
theorem lead_eq_none_iff {q : Query} {candidates : List Factor} :
    q.lead candidates = none ↔ ∀ f ∈ candidates, ¬ q.Eligible f := by
  have hkeep := keeps_lead q candidates
  constructor
  · intro h f hf
    rw [h] at hkeep
    exact rank?_eq_none_iff.mp (hkeep f hf)
  · intro h
    cases hl : q.lead candidates with
    | none => rfl
    | some l =>
      rw [hl] at hkeep
      obtain ⟨hmem, hrank⟩ := first_of_keeps hkeep
      exact absurd (eligible_of_rank? hrank) (h _ hmem)

theorem matched_lead {q : Query} (hk : q.keys.Nodup) {candidates : List Factor} {l : Lead}
    (h : q.lead candidates = some l) : l.rank.matched = q.matched l.first := by
  have hkeep := keeps_lead q candidates
  rw [h] at hkeep
  have hrank := (first_of_keeps hkeep).2
  rw [rank?_of_eligible hk (eligible_of_rank? hrank), Option.some.injEq] at hrank
  rw [← hrank]

theorem best_eq_nil_iff {q : Query} (hk : q.keys.Nodup) {candidates : List Factor} :
    q.best candidates = [] ↔ ∀ f ∈ candidates, ¬ q.Eligible f := by
  rw [← lead_eq_none_iff]
  cases hl : q.lead candidates with
  | none =>
    have hnone := lead_eq_none_iff.mp hl
    refine iff_of_true ?_ rfl
    exact List.eq_nil_iff_forall_not_mem.mpr fun f hf =>
      hnone f (mem_best_iff.mp hf).1 (mem_best_iff.mp hf).2.1
  | some l => simp [best_eq_lead hk hl]

/-- Where a candidate meets as much as any other does and has no labels beyond that, the best
candidates are those that do the same. -/
theorem isBest_iff_of_bare {q : Query} {candidates : List Factor} {v f : Factor}
    (hv : v ∈ candidates) (heligible : q.Eligible v) (hbare : q.unmatched v = 0)
    (hmost : ∀ g ∈ candidates, q.Eligible g → q.matched g ≤ q.matched v) (hf : f ∈ candidates) :
    q.IsBest candidates f ↔ q.Eligible f ∧ q.matched f = q.matched v ∧ q.unmatched f = 0 := by
  constructor
  · rintro ⟨hfe, hbest⟩
    have hnot := hbest v hv heligible
    have hle := hmost f hf hfe
    rw [Prefers, hbare] at hnot
    exact ⟨hfe, by omega, by omega⟩
  · rintro ⟨hfe, hmatched, hunmatched⟩
    refine ⟨hfe, ?_⟩
    intro g hg hge hpref
    have hle := hmost g hg hge
    rw [Prefers, hmatched, hunmatched] at hpref
    omega

/-- What a query finds is one of the candidates that it may find. -/
theorem eligible_of_resolve {q : Query} {candidates : List Factor} {r : Resolution}
    (h : q.resolve candidates = some r) : r.factor ∈ candidates ∧ q.Eligible r.factor := by
  have hkeeps := keeps_lead q candidates
  rw [resolve] at h
  split at h
  · cases h
  · next l hl =>
    rw [hl] at hkeeps
    obtain ⟨hmem, hrank⟩ := first_of_keeps hkeeps
    split at h
    · cases h
    · cases h
      exact ⟨hmem, eligible_of_rank? hrank⟩

/-- What a query finds, read off the best candidates alone. -/
theorem resolve_eq_best {q : Query} (hk : q.keys.Nodup) (candidates : List Factor) :
    q.resolve candidates =
      match q.best candidates with
      | [] => none
      | f :: others =>
        if !others.isEmpty && q.ties == .refuse then none
        else some ⟨f, q.matched f, q.matched f < q.conditions.length, others.map (·.id)⟩ := by
  rw [resolve]
  cases hl : q.lead candidates with
  | none => rw [(best_eq_nil_iff hk).mpr (lead_eq_none_iff.mp hl)]
  | some l => simp only [best_eq_lead hk hl, matched_lead hk hl]

/-- What a query finds is the first of the best candidates, and its rivals are the others. -/
theorem best_of_resolve {q : Query} (hk : q.keys.Nodup) {candidates : List Factor} {r : Resolution}
    (h : q.resolve candidates = some r) :
    ∃ others, q.best candidates = r.factor :: others ∧ r.rivals = others.map (·.id) ∧
      r.fallback = decide (q.matched r.factor < q.conditions.length) := by
  rw [resolve_eq_best hk] at h
  split at h
  · cases h
  · next f others hbest =>
    split at h
    · cases h
    · cases h
      exact ⟨others, hbest, rfl, rfl⟩

/-- Of two best candidates neither is preferred, so they meet and miss the same numbers of labels.
-/
theorem alike_of_mem_best {q : Query} {candidates : List Factor} {f g : Factor}
    (hf : f ∈ q.best candidates) (hg : g ∈ q.best candidates) :
    q.matched f = q.matched g ∧ q.unmatched f = q.unmatched g := by
  obtain ⟨hfc, hfe, hfbest⟩ := mem_best_iff.mp hf
  obtain ⟨hgc, hge, hgbest⟩ := mem_best_iff.mp hg
  have hgf := hfbest g hgc hge
  have hfg := hgbest f hfc hfe
  rw [Prefers] at hgf hfg
  omega

/-- An only best candidate is found without rivals, whatever is done with ties. -/
theorem resolve_of_best {q : Query} (hk : q.keys.Nodup) {candidates : List Factor} {f : Factor}
    (h : q.best candidates = [f]) :
    q.resolve candidates =
      some ⟨f, q.matched f, q.matched f < q.conditions.length, []⟩ := by
  rw [resolve_eq_best hk, h]
  rfl

/-- A query finds nothing exactly if no candidate is eligible, or if several are best and ties are
refused. Otherwise it finds the first of the best candidates and tells the others. -/
theorem resolve_finds_first_best {q : Query} (hq : q.Built) (candidates : List Factor) :
    (q.resolve candidates = none ↔ (∀ f ∈ candidates, ¬ q.Eligible f) ∨
      2 ≤ (q.best candidates).length ∧ q.ties = .refuse) ∧
    ∀ r, q.resolve candidates = some r → ∃ others, q.best candidates = r.factor :: others ∧
      r.matched = q.matched r.factor ∧
      (r.fallback = true ↔ r.matched < q.conditions.length) ∧
      r.rivals = others.map (·.id) := by
  have hk := hq.nodup_keys
  rw [resolve]
  cases hl : q.lead candidates with
  | none =>
    have hnone := lead_eq_none_iff.mp hl
    refine ⟨?_, ?_⟩
    · simp only [true_iff]
      exact Or.inl hnone
    · intro r hr
      cases hr
  | some l =>
    have hsome : ¬ ∀ f ∈ candidates, ¬ q.Eligible f := by
      intro h
      rw [lead_eq_none_iff.mpr h] at hl
      cases hl
    have hbest := best_eq_lead hk hl
    have hmany : 2 ≤ (q.best candidates).length ↔ l.others ≠ [] := by
      rw [hbest, List.length_cons, ← List.length_pos_iff]
      omega
    rw [hmany]
    refine ⟨?_, ?_⟩
    · simp [hsome]
    · intro r hr
      dsimp only at hr
      split at hr
      · cases hr
      · rw [Option.some.injEq] at hr
        subst hr
        exact ⟨l.others, hbest, matched_lead hk hl, by simp, rfl⟩

def swissTrain (id : Int64) (labels : List (String × Label)) : Factor :=
  ⟨id, .train, .ofList (("country_code", .text "CH") :: labels), .empty, default, none⟩

/-- Two factors without an operator are tied for the trains of one. -/
theorem resolve_swiss_trains :
    let q := ((all .train).require "country_code" (.text "CH")).refine "operator" (.text "SBB")
    let candidates := [swissTrain 1 [("class", .number 2)], swissTrain 2 [], swissTrain 3 []]
    q.Built ∧ q.resolve candidates = some ⟨swissTrain 2 [], 1, true, [3]⟩ ∧
      ∃ others, q.best candidates = swissTrain 2 [] :: others ∧ [3] = others.map (·.id) := by
  intro q candidates
  have hq : q.Built := ((Built.all _).require _ _).refine _ _
  have hr : q.resolve candidates = some ⟨swissTrain 2 [], 1, true, [3]⟩ := rfl
  obtain ⟨others, hbest, _, _, hrivals⟩ := (resolve_finds_first_best hq candidates).2 _ hr
  exact ⟨hq, hr, others, hbest, hrivals⟩

end Query
end CarbonLedger
