import CarbonLedger.Proofs.CatalogRuns
import Mathlib.Data.List.Chain

/-! The versions of a slot in time: each but the last ends where the next one starts, and the last
one is current. -/

namespace CarbonLedger

def Factor.inSlot (f : Factor) (kind : EmissionKind) (k : Classification) : Bool :=
  f.kind == kind && f.classification == k

theorem Factor.inSlot_iff {f : Factor} {kind : EmissionKind} {k : Classification} :
    f.inSlot kind k = true ↔ f.kind = kind ∧ (f.classification == k) = true := by
  rw [inSlot, Bool.and_eq_true, beq_iff_eq]

theorem Factor.sharesSlot_of_inSlot {f g : Factor} {kind : EmissionKind} {k : Classification}
    (hf : f.inSlot kind k = true) (hg : g.inSlot kind k = true) : f.sharesSlot g = true := by
  rw [inSlot_iff] at hf hg
  rw [sharesSlot, Bool.and_eq_true, beq_iff_eq]
  exact ⟨hf.1.trans hg.1.symm, BEq.trans hf.2 (BEq.symm hg.2)⟩

theorem Factor.inSlot_of_sharesSlot {f g : Factor} {kind : EmissionKind} {k : Classification}
    (hf : f.inSlot kind k = true) (h : f.sharesSlot g = true) : g.inSlot kind k = true := by
  rw [inSlot_iff] at *
  rw [sharesSlot, Bool.and_eq_true, beq_iff_eq] at h
  exact ⟨h.1.symm.trans hf.1, BEq.trans (BEq.symm h.2) hf.2⟩

theorem Factor.isValidAt_iff {f : Factor} {t : Instant} :
    f.isValidAt t = true ↔ f.validFrom ≤ t ∧ ∀ e, f.validTo = some e → t < e := by
  cases h : f.validTo <;> simp [isValidAt, h]

namespace Catalog

def Call.BringsCurrent : Call → Prop
  | .enter f => f.isCurrent = true
  | .renew _ => True

/-- The catalogs that a run of such calls leads to, whether the calls succeed or fail. -/
inductive Grown : Catalog → Prop
  | empty : Grown empty
  | call {c : Catalog} (x : Call) : Grown c → x.BringsCurrent → Grown (x.write.on c).2

def versions (c : Catalog) (kind : EmissionKind) (k : Classification) : List Factor :=
  c.factors.filter fun f => f.inSlot kind k

/-- A slot has one current version at most. -/
theorem OneCurrent.current_eq_singleton {c : Catalog} (h : OneCurrent c.factors)
    {kind : EmissionKind} {k : Classification} {f : Factor}
    (hf : f ∈ (c.versions kind k).filter (·.isCurrent)) :
    (c.versions kind k).filter (·.isCurrent) = [f] := by
  have hone : OneCurrent ((c.versions kind k).filter (·.isCurrent)) :=
    h.sublist (List.filter_sublist.trans List.filter_sublist)
  refine hone.eq_singleton hf ?_ ?_
  · exact fun g hg => (List.mem_filter.mp hg).2
  · intro g hg s hs
    obtain ⟨hg, _⟩ := List.mem_filter.mp hg
    obtain ⟨hs, _⟩ := List.mem_filter.mp hs
    exact Factor.sharesSlot_of_inSlot (List.mem_filter.mp hg).2 (List.mem_filter.mp hs).2

/-- Versions that follow each other without a gap, the last of them current. -/
structure Unbroken (vs : List Factor) : Prop where
  follows : vs.IsChain fun f g => f.validTo = some g.validFrom ∧ f.validFrom < g.validFrom
  lastCurrent : ∀ f ∈ vs.getLast?, f.validTo = none

theorem Unbroken.exists_current {vs : List Factor} (h : Unbroken vs) (hne : vs ≠ []) :
    ∃ f ∈ vs, f.isCurrent = true := by
  refine ⟨vs.getLast hne, List.getLast_mem hne, ?_⟩
  rw [Factor.isCurrent, h.lastCurrent _ (List.getLast?_eq_some_getLast hne)]
  rfl

section Slot
variable {c : Catalog} {kind : EmissionKind} {k : Classification} {f : Factor} {d : Draft}

theorem versions_place_of_other (hf : f.inSlot kind k = false) :
    versions ⟨place f c.factors⟩ kind k = c.versions kind k := by
  rw [versions, place, List.filter_append, List.filter_cons_of_neg (by simp [hf]),
    ← List.filter_append, List.takeWhile_append_dropWhile, versions]

theorem versions_place_of_none (hf : f.inSlot kind k = true) (hnone : c.versions kind k = []) :
    versions ⟨place f c.factors⟩ kind k = [f] := by
  rw [versions, List.filter_eq_nil_iff] at hnone
  have hbefore : (c.factors.takeWhile fun g => g.id < f.id).filter
      (fun g => g.inSlot kind k) = [] :=
    List.filter_eq_nil_iff.mpr fun g hg => hnone g ((List.takeWhile_sublist _).subset hg)
  have hbehind : (c.factors.dropWhile fun g => g.id < f.id).filter
      (fun g => g.inSlot kind k) = [] :=
    List.filter_eq_nil_iff.mpr fun g hg => hnone g ((List.dropWhile_sublist _).subset hg)
  rw [versions, place, List.filter_append, hbefore, List.nil_append, List.filter_cons, if_pos hf,
    hbehind]

/-- A factor that comes in as current is the first version of its slot. -/
theorem unbroken_place (h : Unbroken (c.versions kind k)) (hcur : f.isCurrent = true)
    (ha : c.accept f = .ok ()) : Unbroken (versions ⟨place f c.factors⟩ kind k) := by
  cases hf : f.inSlot kind k with
  | false => rwa [versions_place_of_other hf]
  | true =>
    have hnone : c.versions kind k = [] := by
      by_contra hne
      obtain ⟨g, hg, hgc⟩ := h.exists_current hne
      obtain ⟨hmem, hgslot⟩ := List.mem_filter.mp hg
      have hno := (accept_iff_compatible.mp ha).2 g hmem hcur hgc
      rw [Factor.sharesSlot_of_inSlot hf hgslot] at hno
      cases hno
    rw [versions_place_of_none hf hnone]
    refine ⟨List.isChain_singleton f, ?_⟩
    intro g hg
    rw [List.getLast?_singleton, Option.mem_some_iff] at hg
    rw [← hg]
    exact Option.isNone_iff_eq_none.mp hcur

theorem endedBy_eq (d : Draft) (f : Factor) :
    endedBy d f = (f.isCurrent && f.inSlot d.kind d.classification) := by
  rw [endedBy, Factor.inSlot, Bool.and_assoc]

theorem endedBy_iff {g : Factor} (id : Int64) :
    endedBy d g = true ↔ g.isCurrent = true ∧ g.sharesSlot (d.toFactor id) = true := by
  rw [endedBy_eq, Bool.and_eq_true]
  rfl

theorem validFrom_endFor (d : Draft) (f : Factor) : (endFor d f).validFrom = f.validFrom := by
  rw [endFor]
  split <;> rfl

theorem inSlot_endFor (d : Draft) (f : Factor) :
    (endFor d f).inSlot kind k = f.inSlot kind k := by
  rw [Factor.inSlot, kind_endFor, classification_endFor, Factor.inSlot]

/-- A version that has an end is not given another one. -/
theorem endFor_of_validTo {e : Instant} (h : f.validTo = some e) : endFor d f = f := by
  rw [endFor, endedBy, Factor.isCurrent, h]
  rfl

/-- A replacement ends the versions of its slot and adds the draft as the last one. -/
theorem versions_renewed (id : Int64) : (c.renewed d id).versions kind k =
    (c.versions kind k).map (endFor d) ++
      [d.toFactor id].filter fun f => f.inSlot kind k := by
  have hslot : (fun f : Factor => f.inSlot kind k) ∘ endFor d = fun f => f.inSlot kind k :=
    funext fun f => inSlot_endFor d f
  rw [versions, renewed, List.filter_append, List.filter_map, hslot, versions]

/-- A replacement leaves the versions of other slots alone. -/
theorem versions_renewed_of_other {id : Int64} (hd : (d.toFactor id).inSlot kind k = false) :
    (c.renewed d id).versions kind k = c.versions kind k := by
  have hsame : ∀ f ∈ c.versions kind k, endFor d f = f := by
    intro f hf
    refine if_neg fun hended => ?_
    have hshares := ((endedBy_iff id).mp hended).2
    rw [Factor.inSlot_of_sharesSlot (List.mem_filter.mp hf).2 hshares] at hd
    cases hd
  rw [versions_renewed, List.map_congr_left hsame, List.map_id',
    List.filter_cons_of_neg (by simp [hd]), List.filter_nil, List.append_nil]

/-- In its own slot a replacement ends the last version and follows it. -/
theorem unbroken_renewed (h : Unbroken (c.versions kind k)) (id : Int64)
    (hlater : ∀ g ∈ c.factors, endedBy d g = true → g.validFrom < d.validFrom) :
    Unbroken ((c.renewed d id).versions kind k) := by
  cases hd : (d.toFactor id).inSlot kind k with
  | false => rwa [versions_renewed_of_other hd]
  | true =>
    rw [versions_renewed, List.filter_cons, if_pos hd, List.filter_nil]
    refine ⟨List.isChain_append.mpr ⟨?_, List.isChain_singleton _, ?_⟩, ?_⟩
    · -- A version with another behind it has its end already.
      rw [List.isChain_map]
      refine h.follows.imp ?_
      rintro f g ⟨hto, hfrom⟩
      rw [endFor_of_validTo hto, validFrom_endFor]
      exact ⟨hto, hfrom⟩
    · -- The last version is current, so it is the one that is ended.
      intro f hf g hg
      rw [List.getLast?_map, Option.mem_def, Option.map_eq_some_iff] at hf
      obtain ⟨last, hlast, rfl⟩ := hf
      rw [List.head?_singleton, Option.mem_some_iff] at hg
      obtain ⟨hmem, hslot⟩ := List.mem_filter.mp (List.mem_of_getLast? hlast)
      have hcur : last.isCurrent = true := Option.isNone_iff_eq_none.mpr (h.lastCurrent last hlast)
      have hended := (endedBy_iff id).mpr ⟨hcur, Factor.sharesSlot_of_inSlot hslot hd⟩
      rw [validFrom_endFor, ← hg]
      refine ⟨?_, hlater last hmem hended⟩
      rw [endFor, if_pos hended]
      rfl
    · intro f hf
      rw [List.getLast?_concat, Option.mem_some_iff] at hf
      rw [← hf]
      rfl

/-- Calls that bring current factors leave no gap between the versions of a slot. -/
theorem unbroken_call (h : Unbroken (c.versions kind k)) {x : Call} (hx : x.BringsCurrent) :
    Unbroken ((x.write.on c).2.versions kind k) := by
  rcases x.on_cases c with ⟨e, hon⟩ | ⟨f, rfl, ha, hon⟩ | ⟨d, id, rfl, _, hlater, hon⟩
  · rw [hon]
    exact h
  · rw [hon]
    exact unbroken_place h hx ha
  · rw [hon]
    exact unbroken_renewed h id hlater

end Slot

theorem Grown.unbroken {c : Catalog} (h : Grown c) (kind : EmissionKind) (k : Classification) :
    Unbroken (c.versions kind k) := by
  induction h with
  | empty => exact ⟨List.isChain_nil, fun f hf => by cases hf⟩
  | call x _ hx ih => exact unbroken_call ih hx

/-- Versions that share out all time from a start on: no two hold at once, at each time one does,
and each ends when the next one starts. -/
structure Tiles (vs : List Factor) (start : Instant) : Prop where
  first : ∃ f ∈ vs, f.validFrom = start
  ascending : vs.Pairwise fun f g => f.validFrom < g.validFrom
  lasting : ∀ f ∈ vs, ∃ t, f.isValidAt t = true
  apart : vs.Pairwise fun f g => ∀ t, ¬ (f.isValidAt t = true ∧ g.isValidAt t = true)
  covers : ∀ t, (∃ f ∈ vs, f.isValidAt t = true) ↔ start ≤ t
  handsOver : ∀ (i : Nat) (f : Factor), vs[i]? = some f → f.validTo = vs[i + 1]?.map (·.validFrom)

theorem tiles_singleton {f : Factor} (hto : f.validTo = none) : Tiles [f] f.validFrom := by
  have hvalid (t : Instant) : f.isValidAt t = true ↔ f.validFrom ≤ t := by
    rw [Factor.isValidAt_iff, hto]
    simp
  refine ⟨⟨f, List.mem_cons_self, rfl⟩, List.pairwise_singleton _ _, ?_,
    List.pairwise_singleton _ _, ?_, ?_⟩
  · intro g hg
    rw [List.mem_singleton.mp hg]
    exact ⟨f.validFrom, (hvalid _).mpr (Instant.le_refl _)⟩
  · intro t
    simp [hvalid]
  · intro i g hg
    cases i with
    | zero =>
      cases hg
      exact hto
    | succ i => cases hg

/-- One more version before the others, which ends when the first of them starts. -/
theorem Tiles.cons {f g : Factor} {r : List Factor} (h : Tiles (g :: r) g.validFrom)
    (hto : f.validTo = some g.validFrom) (hfrom : f.validFrom < g.validFrom) :
    Tiles (f :: g :: r) f.validFrom := by
  have hstart : ∀ s ∈ g :: r, g.validFrom ≤ s.validFrom := by
    intro s hs
    rcases List.mem_cons.mp hs with rfl | hs
    · exact Instant.le_refl _
    · exact Instant.le_of_lt ((List.pairwise_cons.mp h.ascending).1 s hs)
  have hvalid (t : Instant) : f.isValidAt t = true ↔ f.validFrom ≤ t ∧ t < g.validFrom := by
    rw [Factor.isValidAt_iff, hto]
    simp
  refine ⟨⟨f, List.mem_cons_self, rfl⟩, List.pairwise_cons.mpr ⟨?_, h.ascending⟩, ?_,
    List.pairwise_cons.mpr ⟨?_, h.apart⟩, ?_, ?_⟩
  · intro s hs
    exact Instant.lt_of_lt_of_le hfrom (hstart s hs)
  · intro s hs
    rcases List.mem_cons.mp hs with rfl | hs
    · exact ⟨s.validFrom, (hvalid _).mpr ⟨Instant.le_refl _, hfrom⟩⟩
    · exact h.lasting s hs
  · rintro s hs t ⟨hft, hst⟩
    have hge := Instant.le_trans (hstart s hs) (Factor.isValidAt_iff.mp hst).1
    exact Instant.not_lt.mpr hge ((hvalid t).mp hft).2
  · intro t
    rw [List.exists_mem_cons_iff, h.covers, hvalid]
    constructor
    · rintro (hft | hgt)
      · exact hft.1
      · exact Instant.le_trans (Instant.le_of_lt hfrom) hgt
    · intro hft
      by_cases hlt : t < g.validFrom
      · exact Or.inl ⟨hft, hlt⟩
      · exact Or.inr (Instant.not_lt.mp hlt)
  · intro i s hs
    cases i with
    | zero =>
      cases hs
      exact hto
    | succ i => exact h.handsOver i s hs

/-- Versions without a gap tile the time from the start of the first. -/
theorem Unbroken.tiles {f : Factor} {r : List Factor} (h : Unbroken (f :: r)) :
    Tiles (f :: r) f.validFrom := by
  induction r generalizing f with
  | nil => exact tiles_singleton (h.lastCurrent f rfl)
  | cons g r ih =>
    obtain ⟨⟨hto, hfrom⟩, hrest⟩ := List.isChain_cons_cons.mp h.follows
    exact (ih ⟨hrest, h.lastCurrent⟩).cons hto hfrom

/-- The versions that hold at a time are one if any does. -/
theorem Tiles.filter_isValidAt {vs : List Factor} {start t : Instant} (h : Tiles vs start)
    {f : Factor} (hf : f ∈ vs) (hft : f.isValidAt t = true) :
    vs.filter (·.isValidAt t) = [f] := by
  apply eq_singleton_of_pairwise (List.mem_filter.mpr ⟨hf, hft⟩) (h.apart.filter _)
  intro g hg s hs hapart
  exact hapart t ⟨(List.mem_filter.mp hg).2, (List.mem_filter.mp hs).2⟩

end Catalog
end CarbonLedger
