import CarbonLedger.Factor.Catalog
import CarbonLedger.Proofs.ResolutionRank

namespace CarbonLedger

def Resolution.asFallback (r : Resolution) : Resolution := { r with fallback := true }

namespace Query

/-- Several candidates are best, and the query takes none of them. -/
def RefusesTie (q : Query) (candidates : List Factor) : Prop :=
  q.ties = .refuse ∧ 2 ≤ (q.best candidates).length

def elsewhere (q : Query) (d : Condition) : Query :=
  q.add { d with value := .text Country.restOfWorld }

theorem restOfWorld?_eq_some {q : Query} {d : Condition} (h : q.condition? "country_code" = some d)
    (hne : d.value.text? ≠ some Country.restOfWorld) :
    q.restOfWorld? = some (q.elsewhere d) := by
  rw [restOfWorld?, h]
  exact if_neg hne

theorem elsewhere_of_restOfWorld? {q w : Query} (h : q.restOfWorld? = some w) :
    ∃ d, q.condition? "country_code" = some d ∧ d.value.text? ≠ some Country.restOfWorld ∧
      w = q.elsewhere d := by
  rw [restOfWorld?] at h
  split at h
  · cases h
  · next d hd =>
    split at h
    · cases h
    · next hne => exact ⟨d, hd, hne, (Option.some.inj h).symm⟩

theorem restOfWorld?_eq_none {q : Query} (h : ∀ d, q.condition? "country_code" = some d →
    d.value.text? = some Country.restOfWorld) : q.restOfWorld? = none := by
  rw [restOfWorld?]
  split
  · rfl
  · next d hd => exact if_pos (h d hd)

/-- A refused tie finds nothing. -/
theorem resolve_of_refusesTie {q : Query} (hk : q.keys.Nodup) {candidates : List Factor}
    (h : q.RefusesTie candidates) : q.resolve candidates = none := by
  obtain ⟨hties, hmany⟩ := h
  rw [resolve_eq_best hk]
  split
  · rfl
  · next f others hbest =>
    have hothers : others.isEmpty = false := by
      rw [hbest, List.length_cons] at hmany
      cases others with
      | nil => simp at hmany
      | cons g r => rfl
    simp [hothers, hties]

theorem resolve_of_not_eligible {q : Query} (hk : q.keys.Nodup) {candidates : List Factor}
    (h : ∀ f ∈ candidates, ¬ q.Eligible f) : q.resolve candidates = none := by
  rw [resolve_eq_best hk, (best_eq_nil_iff hk).mpr h]

/-- Without a refused tie, an eligible factor is enough for a query to find one. -/
theorem isSome_resolve {q : Query} (hk : q.keys.Nodup) {candidates : List Factor}
    (h : ∃ f ∈ candidates, q.Eligible f) (hties : ¬ q.RefusesTie candidates) :
    (q.resolve candidates).isSome = true := by
  rw [resolve_eq_best hk]
  split
  · next hbest =>
    obtain ⟨f, hf, he⟩ := h
    exact absurd he ((best_eq_nil_iff hk).mp hbest f hf)
  · next f others hbest =>
    have htake : (!others.isEmpty && q.ties == .refuse) = false := by
      by_contra hrefuse
      rw [Bool.not_eq_false, Bool.and_eq_true, beq_iff_eq] at hrefuse
      refine hties ⟨hrefuse.2, ?_⟩
      have hpos : others ≠ [] := by simpa using hrefuse.1
      have hlen := List.length_pos_iff.mpr hpos
      rw [hbest, List.length_cons]
      omega
    rw [htake]
    rfl

theorem resolveAnywhere_of_isSome {q : Query} {candidates : List Factor}
    (h : (q.resolve candidates).isSome = true) :
    q.resolveAnywhere candidates = q.resolve candidates := by
  obtain ⟨r, hr⟩ := Option.isSome_iff_exists.mp h
  rw [resolveAnywhere, hr]

theorem resolveAnywhere_of_eq_none {q : Query} {candidates : List Factor}
    (h : q.resolve candidates = none) :
    q.resolveAnywhere candidates =
      (q.restOfWorld?.bind fun w => w.resolve candidates).map Resolution.asFallback := by
  rw [resolveAnywhere, h]
  cases q.restOfWorld? <;> rfl

end Query

namespace Catalog

/-- What is found is found for the query itself, or for the rest of the world when the query gives
nothing. -/
theorem resolve_cases {c : Catalog} {q : Query} {r : Resolution} (h : c.resolve q = some r) :
    q.resolve (c.ofKind q.kind) = some r ∨
    q.resolve (c.ofKind q.kind) = none ∧ ∃ d s, q.condition? "country_code" = some d ∧
      d.value.text? ≠ some Country.restOfWorld ∧
      (q.elsewhere d).resolve (c.ofKind q.kind) = some s ∧ r = s.asFallback := by
  cases hown : q.resolve (c.ofKind q.kind) with
  | some s =>
    have hsome : c.resolve q = some s := by
      rw [← hown]
      exact Query.resolveAnywhere_of_isSome (by rw [hown, Option.isSome_some])
    exact Or.inl (hsome.symm.trans h)
  | none =>
    have helse : c.resolve q = (q.restOfWorld?.bind fun w => w.resolve (c.ofKind q.kind)).map
        Resolution.asFallback := Query.resolveAnywhere_of_eq_none hown
    rw [h, eq_comm, Option.map_eq_some_iff] at helse
    obtain ⟨s, hs, hr⟩ := helse
    obtain ⟨w, hw, hs⟩ := Option.bind_eq_some_iff.mp hs
    obtain ⟨d, hd, hne, rfl⟩ := Query.elsewhere_of_restOfWorld? hw
    exact Or.inr ⟨rfl, d, s, hd, hne, hs, hr.symm⟩

/-- A query without a country finds nothing elsewhere. -/
theorem resolve_of_no_country {c : Catalog} {q : Query}
    (h : q.condition? "country_code" = none) : c.resolve q = q.resolve (c.ofKind q.kind) := by
  have hworld : q.restOfWorld? = none := by
    apply Query.restOfWorld?_eq_none
    intro d hd
    rw [h] at hd
    cases hd
  rw [resolve, Query.resolveAnywhere, hworld]
  cases q.resolve (c.ofKind q.kind) <;> rfl

/-- With an eligible factor a query finds what it finds among the factors of its kind, unless it
refuses a tie. With none, and after a refused tie, it finds what it finds with the rest of the world
for its country, told as a fallback; a query without country, or for the rest of the world already,
then finds nothing. -/
theorem resolve_by_country {q : Query} (hq : q.Built) (c : Catalog) :
    let own := c.ofKind q.kind
    ((∃ f ∈ own, q.Eligible f) → ¬ q.RefusesTie own →
      c.resolve q = q.resolve own ∧ (c.resolve q).isSome = true) ∧
    ((∀ f ∈ own, ¬ q.Eligible f) ∨ q.RefusesTie own →
      (∀ d, q.condition? "country_code" = some d → d.value.text? ≠ some Country.restOfWorld →
        c.resolve q = ((q.elsewhere d).resolve own).map Resolution.asFallback) ∧
      ((∀ d, q.condition? "country_code" = some d → d.value.text? = some Country.restOfWorld) →
        c.resolve q = none)) := by
  intro own
  have hk := hq.nodup_keys
  refine ⟨?_, ?_⟩
  · intro heligible hties
    have hsome := Query.isSome_resolve hk heligible hties
    have hown : c.resolve q = q.resolve own := Query.resolveAnywhere_of_isSome hsome
    exact ⟨hown, hown ▸ hsome⟩
  · intro hnothing
    have hnone : q.resolve own = none := by
      rcases hnothing with hnot | htie
      · exact Query.resolve_of_not_eligible hk hnot
      · exact Query.resolve_of_refusesTie hk htie
    have helse : c.resolve q = (q.restOfWorld?.bind fun w => w.resolve own).map
        Resolution.asFallback := Query.resolveAnywhere_of_eq_none hnone
    refine ⟨?_, ?_⟩
    · intro d hd hne
      rw [helse, Query.restOfWorld?_eq_some hd hne]
      rfl
    · intro hworld
      rw [helse, Query.restOfWorld?_eq_none hworld]
      rfl

def worldTrain (id : Int64) : Factor :=
  ⟨id, .train, .ofList [("country_code", .text Country.restOfWorld)], .empty, default, none⟩

def trainsOf (country : String) : Query :=
  (Query.all .train).require "country_code" (.text country)

/-- Swiss trains find one of two tied factors, Polish trains the one for the rest of the world. -/
theorem resolve_swiss_and_polish_trains :
    let c : Catalog := ⟨[Query.swissTrain 1 [("operator", .text "BLS")],
      Query.swissTrain 2 [("operator", .text "SBB")], worldTrain 3]⟩
    let swiss := trainsOf "CH"
    let polish := trainsOf "PL"
    swiss.Built ∧ c.resolve swiss = swiss.resolve c.factors ∧
      (swiss.resolve c.factors).map (·.rivals) = some [2] ∧
      polish.Built ∧ c.resolve polish = some ⟨worldTrain 3, 1, true, []⟩ := by
  intro c swiss polish
  have hs : swiss.Built := (Query.Built.all _).require _ _
  have hp : polish.Built := (Query.Built.all _).require _ _
  have hfound := (resolve_by_country hs c).1 ⟨_, List.mem_cons_self, by decide⟩ fun h => by
    cases h.1
  have hnothing := (resolve_by_country hp c).2 (Or.inl (by decide))
  have hworld := hnothing.1 ⟨"country_code", .text "PL", .required⟩ (by rfl) (by decide)
  exact ⟨hs, hfound.1, by rfl, hp, hworld.trans (by rfl)⟩

/-- A tie between Swiss trains is refused, and then a train of no country at all is found. -/
theorem resolve_refused_swiss_tie :
    let q := { trainsOf "CH" with ties := .refuse }
    let c : Catalog := ⟨[Query.swissTrain 1 [("operator", .text "BLS")],
      Query.swissTrain 2 [("operator", .text "SBB")], worldTrain 3]⟩
    q.Built ∧ (∃ f ∈ c.ofKind q.kind, q.Eligible f) ∧ q.resolve (c.ofKind q.kind) = none ∧
      c.resolve q = some ⟨worldTrain 3, 1, true, []⟩ := by
  intro q c
  have hq : q.Built := ((Query.Built.all _).require _ _).onTies _
  exact ⟨hq, ⟨_, List.mem_cons_self, by decide⟩, by rfl, by rfl⟩

end Catalog
end CarbonLedger
