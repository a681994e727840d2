import CarbonLedger.Proofs.LabelEquality
import CarbonLedger.Proofs.RestOfWorld

namespace CarbonLedger
namespace Query

def lastOn (added : List Condition) (key : String) : Option Condition :=
  added.reverse.find? fun c => c.key == key

theorem lastOn_concat (added : List Condition) (c : Condition) (key : String) :
    lastOn (added ++ [c]) key = if key = c.key then some c else lastOn added key := by
  rw [lastOn, List.reverse_append, List.reverse_singleton, List.singleton_append]
  split
  · next h => rw [List.find?_cons_of_pos (by simp [h])]
  · next h => rw [List.find?_cons_of_neg (by simpa using fun e => h e.symm), lastOn]

/-- A query holds just the last addition on each key. -/
structure Holds (q : Query) (added : List Condition) : Prop where
  nodup : q.keys.Nodup
  last : ∀ key, q.condition? key = lastOn added key

section Adding
variable {q : Query} {added : List Condition}

theorem holds_all (kind : EmissionKind) : (all kind).Holds [] := ⟨List.nodup_nil, fun _ => rfl⟩

/-- One more addition takes the place of the one on its key. -/
theorem Holds.add (h : q.Holds added) (c : Condition) : (q.add c).Holds (added ++ [c]) := by
  refine ⟨nodup_keys_add h.nodup c, ?_⟩
  intro key
  rw [condition?_add, lastOn_concat, h.last]

theorem Holds.addAll (h : q.Holds added) (cs : List Condition) :
    (cs.foldl Query.add q).Holds (added ++ cs) := by
  induction cs generalizing q added with
  | nil => simpa using h
  | cons c r ih => simpa using ih (h.add c)

def textAddition (key : String) (value : Option String) : List Condition :=
  ((value.bind Text.filled?).map fun s => ⟨key, .text s, .refining⟩).toList

theorem Holds.refineText (h : q.Holds added) (key : String) (value : Option String) :
    (q.refineText key value).Holds (added ++ textAddition key value) := by
  rw [Query.refineText, textAddition]
  cases value.bind Text.filled? with
  | none => simpa using h
  | some s => exact h.add _

/-- The conditions of a query are the last added for their keys. -/
theorem Holds.mem_conditions_iff (h : q.Holds added) {d : Condition} :
    d ∈ q.conditions ↔ lastOn added d.key = some d := by
  rw [← h.last, condition?_eq_some_iff h.nodup, and_iff_left rfl]

end Adding

inductive Recipe
  | all (kind : EmissionKind)
  | ofClassification (kind : EmissionKind) (c : Classification)
  | equipment (submodule equipmentClass : String) (subClass : Option String)
  | electricityMix (countryCode : String)
  | flight (haul : HaulCategory)
  | train (countryCode : String)
  | headcount (category : Option String)
  | externalCloud (provider : String) (service : Option String)
  | externalAi (provider : String) (useCase : Option String)
  | require (r : Recipe) (key : String) (value : Label)
  | refine (r : Recipe) (key : String) (value : Label)
  | refineText (r : Recipe) (key : String) (value : Option String)
  | asOf (r : Recipe) (t : Option Instant)
  | onTies (r : Recipe) (p : TiePolicy)
  | restOfWorld (r : Recipe)

namespace Recipe

/-- The query that a recipe makes. Asking for the rest of the world gives none for a query that asks
for no country, or for the rest of the world already. -/
def query? : Recipe → Option Query
  | all kind => some (Query.all kind)
  | ofClassification kind c => some (Query.ofClassification kind c)
  | equipment submodule equipmentClass subClass =>
    some (Query.equipment submodule equipmentClass subClass)
  | electricityMix countryCode => some (Query.electricityMix countryCode)
  | flight haul => some (Query.flight haul)
  | train countryCode => some (Query.train countryCode)
  | headcount category => some (Query.headcount category)
  | externalCloud provider service => some (Query.externalCloud provider service)
  | externalAi provider useCase => some (Query.externalAi provider useCase)
  | require r key value => r.query?.map fun q => q.require key value
  | refine r key value => r.query?.map fun q => q.refine key value
  | refineText r key value => r.query?.map fun q => q.refineText key value
  | asOf r t => r.query?.map fun q => { q with asOf := t }
  | onTies r p => r.query?.map fun q => { q with ties := p }
  | restOfWorld r => r.query?.bind Query.restOfWorld?

def additions : Recipe → List Condition
  | all _ => []
  | ofClassification _ c => c.entries.map fun e => ⟨e.1, e.2, .refining⟩
  | equipment submodule equipmentClass subClass =>
    [⟨"submodule", .text submodule, .required⟩, ⟨"class", .text equipmentClass, .required⟩] ++
      textAddition "sub_class" subClass
  | electricityMix countryCode => [⟨"country_code", .text (Country.normal countryCode), .required⟩]
  | flight haul => [⟨"haul_category", .text (Cases.name haul), .required⟩]
  | train countryCode => [⟨"country_code", .text (Country.normal countryCode), .required⟩]
  | headcount category => textAddition "category" category
  | externalCloud provider service =>
    [⟨"provider", .text provider, .required⟩] ++ textAddition "service" service
  | externalAi provider useCase =>
    [⟨"provider", .text provider, .required⟩] ++ textAddition "use_case" useCase
  | require r key value => r.additions ++ [⟨key, value, .required⟩]
  | refine r key value => r.additions ++ [⟨key, value, .refining⟩]
  | refineText r key value => r.additions ++ textAddition key value
  | asOf r _ => r.additions
  | onTies r _ => r.additions
  | restOfWorld r => r.additions ++ ((lastOn r.additions "country_code").map fun c =>
      { c with value := .text Country.restOfWorld }).toList

/-- The query of a recipe holds the last addition on each key. -/
theorem holds {r : Recipe} {q : Query} (h : r.query? = some q) : q.Holds r.additions := by
  induction r generalizing q with
  | all kind =>
    cases h
    exact holds_all kind
  | ofClassification kind c =>
    cases h
    have hall := (holds_all kind).addAll (c.entries.map fun e => ⟨e.1, e.2, .refining⟩)
    rwa [List.foldl_map] at hall
  | equipment submodule equipmentClass subClass =>
    cases h
    exact (((holds_all _).add _).add _).refineText _ _
  | electricityMix countryCode =>
    cases h
    exact (holds_all _).add _
  | flight haul =>
    cases h
    have hrequired := (holds_all .flight).add ⟨"haul_category", .text (Cases.name haul), .required⟩
    exact ⟨hrequired.nodup, hrequired.last⟩
  | train countryCode =>
    cases h
    exact (holds_all _).add _
  | headcount category =>
    cases h
    exact (holds_all _).refineText _ _
  | externalCloud provider service =>
    cases h
    exact ((holds_all _).add _).refineText _ _
  | externalAi provider useCase =>
    cases h
    exact ((holds_all _).add _).refineText _ _
  | require r key value ih =>
    obtain ⟨p, hp, rfl⟩ := Option.map_eq_some_iff.mp h
    exact (ih hp).add _
  | refine r key value ih =>
    obtain ⟨p, hp, rfl⟩ := Option.map_eq_some_iff.mp h
    exact (ih hp).add _
  | refineText r key value ih =>
    obtain ⟨p, hp, rfl⟩ := Option.map_eq_some_iff.mp h
    exact (ih hp).refineText _ _
  | asOf r t ih =>
    obtain ⟨p, hp, rfl⟩ := Option.map_eq_some_iff.mp h
    exact ⟨(ih hp).nodup, (ih hp).last⟩
  | onTies r t ih =>
    obtain ⟨p, hp, rfl⟩ := Option.map_eq_some_iff.mp h
    exact ⟨(ih hp).nodup, (ih hp).last⟩
  | restOfWorld r ih =>
    obtain ⟨p, hp, hw⟩ := Option.bind_eq_some_iff.mp h
    obtain ⟨d, hd, _, rfl⟩ := elsewhere_of_restOfWorld? hw
    rw [(ih hp).last] at hd
    rw [additions, hd]
    exact (ih hp).add _

end Recipe

theorem classification_ofClassification (kind : EmissionKind) (c : Classification) :
    (ofClassification kind c).classification = c := by
  have hlist : (ofClassification kind c).classification = KeyMap.ofList c.entries := by
    rw [ofClassification_eq, classification, List.foldl_map]
    rfl
  rw [hlist, KeyMap.ofList_entries]

end Query

/-- Two conditions that no factor tells apart. The values may be equal without being one, as the two
zeros are. -/
structure Condition.AsksSame (d e : Condition) : Prop where
  key : d.key = e.key
  value : d.value = e.value ∨ (d.value == e.value) = true
  role : d.role = e.role

namespace Condition.AsksSame

variable {d e : Condition}

theorem symm (h : d.AsksSame e) : e.AsksSame d :=
  ⟨h.key.symm, h.value.imp Eq.symm BEq.symm, h.role.symm⟩

theorem beq_value (h : d.AsksSame e) (v : Label) : (v == d.value) = (v == e.value) := by
  rcases h.value with heq | hbeq
  · rw [heq]
  · exact BEq.congr_right hbeq

theorem text?_value (h : d.AsksSame e) : d.value.text? = e.value.text? := by
  rcases h.value with heq | hbeq
  · rw [heq]
  · cases hd : d.value with
    | text s =>
      rw [hd] at hbeq
      rw [Label.beq_text_iff.mp (BEq.symm hbeq)]
    | number x =>
      cases he : e.value with
      | text t =>
        rw [hd, he] at hbeq
        cases hbeq
      | number y => rfl

end Condition.AsksSame

namespace Query

structure AsksSame (q p : Query) : Prop where
  kind : q.kind = p.kind
  asOf : q.asOf = p.asOf
  ties : q.ties = p.ties
  forth : ∀ d ∈ q.conditions, ∃ e ∈ p.conditions, d.AsksSame e
  back : ∀ e ∈ p.conditions, ∃ d ∈ q.conditions, e.AsksSame d

namespace AsksSame

variable {q p : Query}

theorem symm (h : q.AsksSame p) : p.AsksSame q :=
  ⟨h.kind.symm, h.asOf.symm, h.ties.symm, h.back, h.forth⟩

theorem eligible (h : q.AsksSame p) {f : Factor} (hf : q.Eligible f) : p.Eligible f where
  kind := hf.kind.trans h.kind
  current := fun hnow => hf.current (h.asOf.trans hnow)
  holds := fun t ht => hf.holds t (h.asOf.trans ht)
  required := by
    intro e he hrole
    obtain ⟨d, hd, hsame⟩ := h.back e he
    obtain ⟨v, hv, hvd⟩ := hf.required d hd (hsame.role ▸ hrole)
    exact ⟨v, hsame.key ▸ hv, (hsame.beq_value v).trans hvd⟩
  agrees := by
    intro e he v hv
    obtain ⟨d, hd, hsame⟩ := h.back e he
    exact (hsame.beq_value v).trans (hf.agrees d hd v (hsame.key ▸ hv))

theorem fits (h : q.AsksSame p) (f : Factor) : q.fits f = p.fits f := by
  rw [Bool.eq_iff_iff, fits_iff_eligible, fits_iff_eligible]
  exact ⟨h.eligible, h.symm.eligible⟩

theorem meets_of_meets (h : q.AsksSame p) {x : String × Label} (hx : q.meets x = true) :
    p.meets x = true := by
  obtain ⟨d, hd, hkey, hvalue⟩ := meets_iff.mp hx
  obtain ⟨e, he, hsame⟩ := h.forth d hd
  exact meets_iff.mpr ⟨e, he, hsame.key.symm.trans hkey, (hsame.beq_value _).symm.trans hvalue⟩

theorem meets (h : q.AsksSame p) : q.meets = p.meets := by
  funext x
  rw [Bool.eq_iff_iff]
  exact ⟨h.meets_of_meets, h.symm.meets_of_meets⟩

theorem keys_subset (h : q.AsksSame p) : q.keys ⊆ p.keys := by
  intro key hkey
  obtain ⟨d, hd, rfl⟩ := List.mem_map.mp hkey
  obtain ⟨e, he, hsame⟩ := h.forth d hd
  exact List.mem_map.mpr ⟨e, he, hsame.key.symm⟩

section Found
variable (h : q.AsksSame p) (hq : q.keys.Nodup) (hp : p.keys.Nodup)
include h hq hp

theorem length_conditions : q.conditions.length = p.conditions.length := by
  have hperm : q.keys.Perm p.keys := by
    rw [List.perm_ext_iff_of_nodup hq hp]
    exact fun key => ⟨fun hkey => h.keys_subset hkey, fun hkey => h.symm.keys_subset hkey⟩
  simpa [keys] using hperm.length_eq

/-- Equal labels are met by both queries, and each label counts for one condition at most. -/
theorem matched (f : Factor) : q.matched f = p.matched f := by
  rw [matched_eq_countP_meets hq, matched_eq_countP_meets hp, h.meets]

/-- Queries that ask the same rank factors the same. -/
theorem rank? : q.rank? = p.rank? := by
  funext f
  rw [Query.rank?, Query.rank?, h.fits, h.matched hq hp]

/-- The scan sees a query through its ranks alone. -/
theorem resolve (candidates : List Factor) : q.resolve candidates = p.resolve candidates := by
  have hmeet : q.meet = p.meet := by
    funext lead f
    unfold meet
    rw [h.rank? hq hp]
  rw [Query.resolve, Query.resolve, lead, lead, hmeet, h.ties, h.length_conditions hq hp]

omit hq in
theorem condition? {key : String} {d : Condition} (hd : q.condition? key = some d) :
    ∃ e, p.condition? key = some e ∧ d.AsksSame e := by
  obtain ⟨e, he, hsame⟩ := h.forth d (List.mem_of_find?_eq_some hd)
  have hkey : d.key = key := by simpa using List.find?_some hd
  exact ⟨e, (condition?_eq_some_iff hp).mpr ⟨he, hsame.key.symm.trans hkey⟩, hsame⟩

end Found

theorem mem_add_iff {c d : Condition} :
    d ∈ (q.add c).conditions ↔ d ∈ q.conditions ∧ d.key ≠ c.key ∨ d = c := by
  simp [add]

theorem forth_add (h : q.AsksSame p) {c c' : Condition} (hc : c.AsksSame c') :
    ∀ d ∈ (q.add c).conditions, ∃ e ∈ (p.add c').conditions, d.AsksSame e := by
  intro d hd
  rcases mem_add_iff.mp hd with ⟨hd, hkey⟩ | rfl
  · obtain ⟨e, he, hsame⟩ := h.forth d hd
    rw [hsame.key, hc.key] at hkey
    exact ⟨e, mem_add_iff.mpr (Or.inl ⟨he, hkey⟩), hsame⟩
  · exact ⟨c', mem_add_iff.mpr (Or.inr rfl), hc⟩

theorem add (h : q.AsksSame p) {c c' : Condition} (hc : c.AsksSame c') :
    (q.add c).AsksSame (p.add c') :=
  ⟨h.kind, h.asOf, h.ties, h.forth_add hc, h.symm.forth_add hc.symm⟩

theorem restOfWorld? (h : q.AsksSame p) (hp : p.keys.Nodup) {w : Query}
    (hw : q.restOfWorld? = some w) : ∃ v, p.restOfWorld? = some v ∧ w.AsksSame v := by
  obtain ⟨d, hd, hne, rfl⟩ := elsewhere_of_restOfWorld? hw
  obtain ⟨e, he, hsame⟩ := h.condition? hp hd
  rw [hsame.text?_value] at hne
  exact ⟨_, restOfWorld?_eq_some he hne, h.add ⟨hsame.key, Or.inl rfl, hsame.role⟩⟩

/-- Queries that ask the same find the same factor, at home or elsewhere. -/
theorem resolveAnywhere (h : q.AsksSame p) (hq : q.keys.Nodup) (hp : p.keys.Nodup)
    (candidates : List Factor) :
    q.resolveAnywhere candidates = p.resolveAnywhere candidates := by
  have hown := h.resolve hq hp candidates
  cases hfound : q.resolve candidates with
  | some r =>
    rw [hfound] at hown
    rw [Query.resolveAnywhere, Query.resolveAnywhere, hfound, ← hown]
  | none =>
    rw [resolveAnywhere_of_eq_none hfound, resolveAnywhere_of_eq_none (hown.symm.trans hfound)]
    cases hw : q.restOfWorld? with
    | some w =>
      obtain ⟨v, hv, hsame⟩ := h.restOfWorld? hp hw
      have hwk := nodup_keys_restOfWorld? hq hw
      have hvk := nodup_keys_restOfWorld? hp hv
      rw [hv, Option.bind_some, Option.bind_some, hsame.resolve hwk hvk]
    | none =>
      cases hv : p.restOfWorld? with
      | none => rfl
      | some v =>
        obtain ⟨w, hw', _⟩ := h.symm.restOfWorld? hq hv
        rw [hw] at hw'
        cases hw'

end AsksSame

/-- However a query was put together, it has one condition on each key, the last that was added on
it. So a factor meets at most as many conditions as it has labels, and its rank splits these into
the ones that are met and the rest; two queries that ask for the same find the same among all
candidates, whatever the order of their conditions; and a query made of a classification asks for
just that classification. -/
theorem recipes_make_maps {r : Recipe} {q : Query} (h : r.query? = some q) :
    q.keys.Nodup ∧ (∀ d, d ∈ q.conditions ↔ lastOn r.additions d.key = some d) ∧
    (∀ f, q.matched f ≤ f.classification.size ∧ q.matched f ≤ q.conditions.length ∧
      ∀ k, q.rank? f = some k →
        k.matched = q.matched f ∧ k.matched + k.extra = f.classification.size) ∧
    (∀ (s : Recipe) (p : Query), s.query? = some p → q.AsksSame p → ∀ candidates,
      q.resolve candidates = p.resolve candidates ∧
      q.resolveAnywhere candidates = p.resolveAnywhere candidates) ∧
    ∀ kind c, (ofClassification kind c).classification = c := by
  have hq := Recipe.holds h
  refine ⟨hq.nodup, fun d => hq.mem_conditions_iff, ?_, ?_, classification_ofClassification⟩
  · intro f
    have hsize := matched_add_unmatched hq.nodup f
    refine ⟨by omega, List.countP_le_length, ?_⟩
    intro k hk
    rw [rank?_of_eligible hq.nodup (eligible_of_rank? hk), Option.some.injEq] at hk
    rw [← hk]
    exact ⟨rfl, hsize⟩
  · intro s p hs hsame candidates
    have hp := (Recipe.holds hs).nodup
    exact ⟨hsame.resolve hq.nodup hp candidates, hsame.resolveAnywhere hq.nodup hp candidates⟩

/-- The operator is asked for twice and the country is replaced, which moves it to the end; asked
for in the other order and once each, they find the same train. -/
theorem recipe_for_trains_elsewhere :
    let trains (country : String) := (Recipe.all .train).require "country_code" (.text country)
    let r := (((trains "CH").refine "operator" (.text "SBB")).require "operator"
      (.text "BLS")).restOfWorld
    let s := (trains Country.restOfWorld).require "operator" (.text "BLS")
    let country : Condition := ⟨"country_code", .text Country.restOfWorld, .required⟩
    let operator : Condition := ⟨"operator", .text "BLS", .required⟩
    let q : Query := ⟨.train, [operator, country], none, .takeFirst⟩
    let p : Query := ⟨.train, [country, operator], none, .takeFirst⟩
    let f : Factor := ⟨3, .train, .ofList [("country_code", .text Country.restOfWorld),
      ("operator", .text "BLS")], .empty, default, none⟩
    r.query? = some q ∧ s.query? = some p ∧ q.AsksSame p ∧ q.keys.Nodup ∧
      p.resolve [f] = some ⟨f, 2, false, []⟩ ∧ q.resolve [f] = p.resolve [f] := by
  intro trains r s country operator q p f
  have hr : r.query? = some q := by rfl
  have hs : s.query? = some p := by rfl
  have hsame : q.AsksSame p := by
    refine ⟨rfl, rfl, rfl, ?_, ?_⟩
    · intro d hd
      exact ⟨d, by simpa [q, p, or_comm] using hd, rfl, Or.inl rfl, rfl⟩
    · intro d hd
      exact ⟨d, by simpa [q, p, or_comm] using hd, rfl, Or.inl rfl, rfl⟩
  obtain ⟨hkeys, _, _, hfound, _⟩ := recipes_make_maps hr
  exact ⟨hr, hs, hsame, hkeys, by rfl, (hfound s p hs hsame [f]).1⟩

end Query
end CarbonLedger
