import CarbonLedger.Proofs.CatalogRuns
import CarbonLedger.Proofs.FactorProvenance
import CarbonLedger.Proofs.KeptRows
import Mathlib.Logic.Relation

/-! Sessions: a catalog, a directory, settings and a ledger that change in any order. -/

namespace CarbonLedger

structure Session where
  catalog : Catalog
  directory : Directory
  settings : Settings
  ledger : Ledger

namespace Session

def empty : Session := ⟨.empty, .empty, .default, .empty⟩

def basis (s : Session) (asOf : Option Instant) : Basis :=
  ⟨s.catalog, s.directory, s.settings, asOf⟩

/-- What can happen in a session. Calls on the catalog and runs may fail. -/
inductive Step (s : Session) : Session → Prop
  | change (x : Catalog.Call) (h : x.HasRoom s.catalog) :
    Step s { s with catalog := (x.write.on s.catalog).2 }
  | locate (place : Location) : Step s { s with directory := s.directory.insert place }
  | record (a : StoredActivity) : Step s { s with ledger := s.ledger.store a }
  | configure (settings : Settings) : Step s { s with settings := settings }
  | recalculate (asOf : Option Instant) (options : RunOptions) (computedAt : Instant)
      (subjects : List Int64) : Step s { s with
        ledger := (s.ledger.recalculate (s.basis asOf) options computedAt subjects).ledger }

def Leads : Session → Session → Prop := Relation.ReflTransGen Step

end Session

namespace Catalog

def Keeps (c c' : Catalog) : Prop :=
  ∀ f ∈ c.factors, ∃ e, { f with validTo := e } ∈ c'.factors

section Keeping
variable {c c' c'' : Catalog}

theorem Keeps.refl (c : Catalog) : c.Keeps c := fun f hf => ⟨f.validTo, hf⟩

theorem Keeps.trans (h : c.Keeps c') (h' : c'.Keeps c'') : c.Keeps c'' := by
  intro f hf
  obtain ⟨e, he⟩ := h f hf
  obtain ⟨e', he'⟩ := h' _ he
  exact ⟨e', he'⟩

/-- No call on the catalog removes a factor or changes more of one than its end. -/
theorem keeps_call (x : Call) (c : Catalog) : c.Keeps (x.write.on c).2 := by
  rcases x.on_cases c with ⟨e, hon⟩ | ⟨f, rfl, _, hon⟩ | ⟨d, id, rfl, _, _, hon⟩
  · rw [hon]
    exact Keeps.refl c
  · rw [hon]
    exact fun g hg => ⟨g.validTo, mem_place.mpr (Or.inr hg)⟩
  · rw [hon]
    intro g hg
    have hmem : endFor d g ∈ (c.renewed d id).factors :=
      List.mem_append_left _ (List.mem_map_of_mem hg)
    rw [endFor] at hmem
    split at hmem
    · exact ⟨some d.validFrom, hmem⟩
    · exact ⟨g.validTo, hmem⟩

/-- A kept catalog backs what the earlier one backed. -/
theorem Keeps.backs (h : c.Keeps c') {a : Activity} {kind : EmissionKind} {s : Snapshot}
    {factors : List Int64} (hc : c.Backs a kind s factors) : c'.Backs a kind s factors := by
  refine ⟨?_, ?_⟩
  · intro id hid
    obtain ⟨f, hf, hfid, hkind⟩ := hc.known id hid
    obtain ⟨e, he⟩ := h f hf
    exact ⟨_, he, hfid, hkind⟩
  · intro n hn
    obtain ⟨f, hf, hfid, hholds⟩ := hc.held n hn
    obtain ⟨e, he⟩ := h f hf
    exact ⟨_, he, hfid, hholds⟩

end Keeping

end Catalog

namespace Session
variable {s s' : Session}

theorem Step.catalog_keeps (h : s.Step s') : s.catalog.Keeps s'.catalog := by
  cases h with
  | change x _ => exact Catalog.keeps_call x s.catalog
  | _ => exact Catalog.Keeps.refl _

theorem Leads.catalog_keeps (h : Leads s s') : s.catalog.Keeps s'.catalog := by
  induction h with
  | refl => exact Catalog.Keeps.refl _
  | tail _ hstep ih => exact ih.trans hstep.catalog_keeps

theorem Leads.catalog_reached (h : Leads empty s) : Catalog.Reached s.catalog := by
  induction h with
  | refl => exact .empty
  | tail _ hstep ih =>
    cases hstep with
    | change x hx => exact ih.call x hx
    | _ => exact ih

theorem Leads.ledger_reached (h : Leads empty s) : s.ledger.Reached := by
  induction h with
  | refl => exact .empty
  | tail _ hstep ih =>
    cases hstep with
    | record a => exact ih.store a
    | recalculate asOf options computedAt subjects => exact ih.recalculate _ _ _ _
    | _ => exact ih

/-- A row was computed at a point of a session from a record: it is an emission of the evaluation of
that record, as it was stored or as history. -/
def Computes (s : Session) (r : ActivityRecord) (row : Emission) : Prop :=
  s.ledger.Decodes row.subject r ∧
    ∃ asOf computedAt e, (s.basis asOf).evaluate r computedAt = .ok e ∧
      ∃ m ∈ e.emissions, row = m.asCurrent ∨ row = m.asHistory

theorem Computes.asHistory {r : ActivityRecord} {row : Emission} (h : s.Computes r row) :
    s.Computes r row.asHistory := by
  obtain ⟨hr, asOf, computedAt, e, he, m, hm, hrow⟩ := h
  refine ⟨hr, asOf, computedAt, e, he, m, hm, Or.inr ?_⟩
  rcases hrow with rfl | rfl
  · rfl
  · rfl

/-- Every row of a session was computed at some point of it. -/
theorem Leads.computed (h : Leads empty s) :
    ∀ row ∈ s.ledger.rows, ∃ s₀ r, Leads empty s₀ ∧ Leads s₀ s ∧ s₀.Computes r row := by
  induction h with
  | refl => exact List.forall_mem_nil _
  | @tail s s' hleads hstep ih =>
    -- What was computed before was computed on the way to the next point, too.
    have hold : ∀ row ∈ s.ledger.rows,
        ∃ s₀ r, Leads empty s₀ ∧ Leads s₀ s' ∧ s₀.Computes r row := by
      intro row hrow
      obtain ⟨s₀, r, hstart, hgoes, hcomputes⟩ := ih row hrow
      exact ⟨s₀, r, hstart, hgoes.tail hstep, hcomputes⟩
    cases hstep with
    | recalculate asOf options computedAt subjects =>
      refine Ledger.rows_recalculate _ ?_ hold ?_
      · rintro row ⟨s₀, r, hstart, hgoes, hcomputes⟩
        exact ⟨s₀, r, hstart, hgoes, hcomputes.asHistory⟩
      · rintro x _ e hsettles m hm
        have hsubject := hsettles.subject_eq (Leads.ledger_reached hleads) hm
        obtain ⟨r, hr, he, _⟩ := hsettles
        have hdecodes : s.ledger.Decodes m.asCurrent.subject r := hsubject ▸ hr
        refine ⟨s, r, hleads, .single (.recalculate asOf options computedAt subjects), hdecodes, ?_⟩
        exact ⟨asOf, computedAt, e, he, m, hm, Or.inl rfl⟩
    | _ => exact hold

theorem Computes.backs {r : ActivityRecord} {row : Emission} (h : s.Computes r row) :
    s.catalog.Backs r.activity row.kind row.snapshot row.factors := by
  obtain ⟨_, asOf, computedAt, e, he, m, hm, hrow⟩ := h
  have hbacks := Basis.backs_of_evaluate he hm
  rcases hrow with rfl | rfl
  · exact hbacks
  · exact hbacks

/-- The trail from a row to its factors holds in every session, at every point of it. Each row was
computed at some point from the record that its subject had there. Each of its ids is that of one
factor of the catalog now, of a kind that its formula looks up, and that factor is but for its end
as it was then. Each number of its snapshot that the record did not give and the settings did not
supply is one that such a factor holds. -/
theorem rows_stay_traceable (h : Leads empty s) :
    ∀ row ∈ s.ledger.rows, ∃ s₀ r, Leads empty s₀ ∧ Leads s₀ s ∧ s₀.Computes r row ∧
      (∀ id ∈ row.factors, ∃ f f₀, s.catalog.factors.filter (fun g => g.id == id) = [f] ∧
        f.kind ∈ row.snapshot.lookedUp ∧ f₀ ∈ s₀.catalog.factors ∧
        f = { f₀ with validTo := f.validTo }) ∧
      ∀ n ∈ row.snapshot.drawn r.activity row.kind,
        ∃ f ∈ s.catalog.factors, f.id ∈ row.factors ∧ f.Holds n := by
  intro row hrow
  obtain ⟨s₀, r, hstart, hgoes, hcomputes⟩ := h.computed row hrow
  have hkeeps := hgoes.catalog_keeps
  refine ⟨s₀, r, hstart, hgoes, hcomputes, ?_, (hkeeps.backs hcomputes.backs).held⟩
  intro id hid
  obtain ⟨f₀, hf₀, rfl, hkind⟩ := hcomputes.backs.known id hid
  obtain ⟨e, hf⟩ := hkeeps f₀ hf₀
  -- The factor of the row is in the catalog still, and no other has its id.
  have honly := h.catalog_reached.sound.filter_id hf
  exact ⟨_, f₀, honly, hkind, hf₀, rfl⟩

def recalculated (s : Session) (computedAt : Instant) (subject : Int64) : Session :=
  { s with ledger := (s.ledger.recalculate (s.basis none) .default computedAt [subject]).ledger }

theorem step_recalculated (s : Session) (computedAt : Instant) (subject : Int64) :
    Step s (s.recalculated computedAt subject) :=
  .recalculate none .default computedAt [subject]

theorem ledger_recalculated (s : Session) (computedAt : Instant) (subject : Int64) :
    (s.recalculated computedAt subject).ledger =
      (Ledger.step (s.basis none) false computedAt (s.ledger.start 1) subject).run.ledger :=
  congrArg Run.ledger (Ledger.recalculate_eq s.ledger (s.basis none) .default computedAt [subject])

def firstRate : Session :=
  ⟨⟨[(cloudRate 0.5 ⟨0, 0⟩).toFactor 1]⟩, .empty, .default,
    Ledger.empty.record (Ledger.cloudSpend 7 "aws")⟩

def secondRate : Session :=
  { firstRate.recalculated ⟨9, 0⟩ 7 with
    catalog := firstRate.catalog.renewed (cloudRate 0.25 ⟨1000, 0⟩) 2 }

theorem leads_secondRate : Leads empty secondRate := by
  have hrate : Step empty { empty with catalog := firstRate.catalog } :=
    .change (.enter ((cloudRate 0.5 ⟨0, 0⟩).toFactor 1)) trivial
  have hspend : Step { empty with catalog := firstRate.catalog } firstRate :=
    .record (.ofRecord (Ledger.cloudSpend 7 "aws"))
  have hroom : (Catalog.Call.renew (cloudRate 0.25 ⟨1000, 0⟩)).HasRoom
      (firstRate.recalculated ⟨9, 0⟩ 7).catalog := by
    intro f hf
    rw [List.mem_singleton.mp hf]
    decide
  have hrenewed : Step (firstRate.recalculated ⟨9, 0⟩ 7) secondRate := .change _ hroom
  exact (((Relation.ReflTransGen.single hrate).tail hspend).tail
    (firstRate.step_recalculated _ _)).tail hrenewed

def spendRow (factor : Int64) (rate kg : Float) (computedAt : Instant) : Emission where
  subject := 7
  kind := .externalCloud
  kg := some kg
  distanceKm := none
  annualKwh := none
  factors := [factor]
  formula := CloudSpend.formula
  computedAt := computedAt
  snapshot := .externalCloud ⟨"aws", none, 80.0, some rate⟩
  isCurrent := true
  reason := none

theorem rows_secondRate : (secondRate.recalculated ⟨2000, 0⟩ 7).ledger.rows =
    [(spendRow 1 0.5 40.0 ⟨9, 0⟩).asHistory, spendRow 2 0.25 20.0 ⟨2000, 0⟩] := by
  have hledger : secondRate.ledger =
      { firstRate.ledger with rows := [spendRow 1 0.5 40.0 ⟨9, 0⟩] } := by
    have hrun : secondRate.ledger = _ := ledger_recalculated firstRate ⟨9, 0⟩ 7
    rw [hrun]
    rfl
  rw [ledger_recalculated, hledger]
  rfl

/-- The row of a spend outlives the rate that it was computed with, and still finds it. -/
theorem first_rate_stays_traceable :
    let s := secondRate.recalculated ⟨2000, 0⟩ 7
    let row := (spendRow 1 0.5 40.0 ⟨9, 0⟩).asHistory
    Leads empty s ∧ row ∈ s.ledger.rows ∧
      (∃ f, s.catalog.factors.filter (fun g => g.id == 1) = [f] ∧ f.kind ∈ row.snapshot.lookedUp ∧
        f.validTo = some ⟨1000, 0⟩) ∧
      ∃ f ∈ s.catalog.factors, f.id ∈ row.factors ∧
        f.Holds ⟨.externalCloud, "kg_co2eq_per_currency_unit", 0.5⟩ := by
  intro s row
  have hs : Leads empty s := leads_secondRate.tail (secondRate.step_recalculated _ _)
  have hrow : row ∈ s.ledger.rows := by
    rw [rows_secondRate]
    exact List.mem_cons_self
  obtain ⟨_, _, _, _, _, hids, hnumbers⟩ := rows_stay_traceable hs row hrow
  obtain ⟨f, _, hone, hkind, _⟩ := hids 1 List.mem_cons_self
  have hended : s.catalog.factors.filter (fun g => g.id == 1) =
      [{ (cloudRate 0.5 ⟨0, 0⟩).toFactor 1 with validTo := some ⟨1000, 0⟩ }] := rfl
  refine ⟨hs, hrow, ⟨f, hone, hkind, ?_⟩, hnumbers _ List.mem_cons_self⟩
  rw [hended] at hone
  cases hone
  rfl

end Session

end CarbonLedger
