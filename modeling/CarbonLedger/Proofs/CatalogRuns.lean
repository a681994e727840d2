import CarbonLedger.Factor.Catalog
import CarbonLedger.Proofs.LabelEquality
import Mathlib.Data.List.Pairwise

/-! Runs of calls on a catalog. The two writers rely on each other: the ids ascend, and what a
replacement ends is all that was current in its slot. -/

namespace CarbonLedger

/-- Where no two members are related as all pairs in the list are, there is one member at most. -/
theorem eq_singleton_of_pairwise {α : Type} {R : α → α → Prop} {l : List α} {a : α} (ha : a ∈ l)
    (h : l.Pairwise R) (hno : ∀ x ∈ l, ∀ y ∈ l, ¬ R x y) : l = [a] := by
  match l with
  | [x] => rw [List.mem_singleton.mp ha]
  | x :: y :: r =>
    have hxy : R x y := (List.pairwise_cons.mp h).1 y List.mem_cons_self
    exact absurd hxy (hno x List.mem_cons_self y (List.mem_cons_of_mem _ List.mem_cons_self))

def Factor.Compatible (f g : Factor) : Prop :=
  f.isCurrent = true → g.isCurrent = true → f.sharesSlot g = false

instance (f g : Factor) : Decidable (f.Compatible g) :=
  inferInstanceAs (Decidable (_ → _ → _))

theorem Factor.Compatible.symm {f g : Factor} (h : f.Compatible g) : g.Compatible f := by
  intro hg hf
  rw [sharesSlot_comm]
  exact h hf hg

instance : Std.Symm Factor.Compatible := ⟨fun _ _ h => h.symm⟩

namespace Catalog

inductive Call
  | enter (f : Factor)
  | renew (d : Draft)

def Call.write : Call → Write Catalog Halt Unit
  | .enter f => ExceptT.adapt Halt.refused (Catalog.enter f)
  | .renew d => (fun _ => ()) <$> Catalog.renew d

/-- Whether there is an id left for what a call brings in. -/
def Call.HasRoom : Call → Catalog → Prop
  | .enter _, _ => True
  | .renew _, c => ∀ f ∈ c.factors, f.id ≠ Int64.maxValue

/-- The catalogs that a run of calls leads to, whether the calls succeed or fail. -/
inductive Reached : Catalog → Prop
  | empty : Reached empty
  | call {c : Catalog} (x : Call) : Reached c → x.HasRoom c → Reached (x.write.on c).2

/-- Ids ascend, and no two current factors are versions of each other. -/
structure Sound (c : Catalog) : Prop where
  ascending : c.factors.Pairwise fun f g => f.id < g.id
  oneCurrent : ∀ f ∈ c.factors, ∀ g ∈ c.factors, f.isCurrent = true → g.isCurrent = true →
    f.id ≠ g.id → f.sharesSlot g = false

def OneCurrent (factors : List Factor) : Prop := factors.Pairwise Factor.Compatible

instance (factors : List Factor) : Decidable (OneCurrent factors) :=
  inferInstanceAs (Decidable (factors.Pairwise Factor.Compatible))

theorem OneCurrent.perm {l m : List Factor} (h : OneCurrent l) (hperm : l.Perm m) :
    OneCurrent m := (hperm.pairwise_iff fun hfg => hfg.symm).mp h

/-- Two current factors of one slot are at one place. -/
theorem OneCurrent.eq_singleton {l : List Factor} (h : OneCurrent l) {f : Factor} (hf : f ∈ l)
    (hcurrent : ∀ g ∈ l, g.isCurrent = true) (hslot : ∀ g ∈ l, ∀ s ∈ l, g.sharesSlot s = true) :
    l = [f] := by
  apply eq_singleton_of_pairwise hf h
  intro g hg s hs hno
  have hshared := hslot g hg s hs
  rw [hno (hcurrent g hg) (hcurrent s hs)] at hshared
  cases hshared

/-- Where ids ascend, different ids are different places. -/
theorem sound_iff {c : Catalog} :
    c.Sound ↔ c.factors.Pairwise (fun f g => f.id < g.id) ∧ OneCurrent c.factors := by
  constructor
  · intro h
    refine ⟨h.ascending, h.ascending.imp_of_mem ?_⟩
    intro f g hf hg hlt hfc hgc
    exact h.oneCurrent f hf g hg hfc hgc (Int64.ne_of_lt hlt)
  · rintro ⟨hascending, hone⟩
    refine ⟨hascending, ?_⟩
    intro f hf g hg hfc hgc hne
    exact List.Pairwise.forall hone hf hg (fun h => hne (congrArg Factor.id h)) hfc hgc

/-- No two factors have one id. -/
theorem Sound.filter_id {c : Catalog} (h : c.Sound) {f : Factor} (hf : f ∈ c.factors) :
    c.factors.filter (fun g => g.id == f.id) = [f] := by
  apply eq_singleton_of_pairwise (List.mem_filter.mpr ⟨hf, beq_self_eq_true f.id⟩)
    (h.ascending.filter _)
  intro g hg s hs hlt
  rw [eq_of_beq (List.mem_filter.mp hg).2, eq_of_beq (List.mem_filter.mp hs).2] at hlt
  exact Int64.lt_irrefl hlt

theorem Sound.eq_of_id_eq {c : Catalog} (h : c.Sound) {f g : Factor} (hf : f ∈ c.factors)
    (hg : g ∈ c.factors) (hid : f.id = g.id) : f = g := by
  have hmem : f ∈ c.factors.filter (fun s => s.id == g.id) :=
    List.mem_filter.mpr ⟨hf, beq_iff_eq.mpr hid⟩
  rw [h.filter_id hg] at hmem
  exact List.mem_singleton.mp hmem

/-- What a call can do: nothing if it fails, or what its writer does if it is accepted. -/
theorem Call.on_cases (x : Call) (c : Catalog) :
    (∃ e, x.write.on c = (.error e, c)) ∨
    (∃ f, x = .enter f ∧ c.accept f = .ok () ∧ x.write.on c = (.ok (), ⟨place f c.factors⟩)) ∨
    ∃ d id, x = .renew d ∧ c.nextId? = some id ∧
      (∀ g ∈ c.factors, endedBy d g = true → g.validFrom < d.validFrom) ∧
      x.write.on c = (.ok (), c.renewed d id) := by
  cases x with
  | enter f =>
    have hon : (Call.enter f).write.on c = _ := Write.on_adapt Halt.refused (Catalog.enter f) c
    rw [on_enter] at hon
    cases h : c.accept f with
    | ok u =>
      rw [h] at hon
      exact Or.inr (Or.inl ⟨f, rfl, h, hon⟩)
    | error e =>
      rw [h] at hon
      exact Or.inl ⟨.refused e, hon⟩
  | renew d =>
    have hon : (Call.renew d).write.on c = _ := Write.on_map (fun _ => ()) (Catalog.renew d) c
    rcases renew_cases d c with ⟨_, h⟩ | ⟨id, hid, ⟨g, _, _, _, h⟩ | ⟨hlater, h⟩⟩
    · rw [h] at hon
      exact Or.inl ⟨_, hon⟩
    · rw [h] at hon
      exact Or.inl ⟨_, hon⟩
    · rw [h] at hon
      exact Or.inr (Or.inr ⟨d, id, rfl, hid, hlater, hon⟩)

theorem place_cons (f g : Factor) (r : List Factor) :
    place f (g :: r) = if g.id < f.id then g :: place f r else f :: g :: r := by
  by_cases h : g.id < f.id <;> simp [place, h]

/-- A factor with a new id can be placed in id order. -/
theorem ascending_place {f : Factor} {factors : List Factor}
    (h : factors.Pairwise fun f g => f.id < g.id) (hf : ∀ g ∈ factors, g.id ≠ f.id) :
    (place f factors).Pairwise fun f g => f.id < g.id := by
  induction factors with
  | nil => exact List.pairwise_singleton _ _
  | cons g r ih =>
    obtain ⟨hg, hr⟩ := List.pairwise_cons.mp h
    rw [place_cons]
    -- The factor goes behind all lesser ids and before the first that is greater.
    split
    · next hlt =>
      refine List.pairwise_cons.mpr ⟨?_, ih hr fun k hk => hf k (List.mem_cons_of_mem _ hk)⟩
      intro k hk
      rcases mem_place.mp hk with rfl | hk
      · exact hlt
      · exact hg k hk
    · next hge =>
      have hfg : f.id < g.id :=
        Int64.lt_of_le_of_ne (Int64.not_lt.mp hge) (hf g List.mem_cons_self).symm
      refine List.pairwise_cons.mpr ⟨?_, h⟩
      intro k hk
      rcases List.mem_cons.mp hk with rfl | hk
      · exact hfg
      · exact Int64.lt_trans hfg (hg k hk)

/-- A slot is free when no current factor shares it. -/
theorem current?_eq_none_iff {c : Catalog} {f : Factor} :
    c.current? f = none ↔ ∀ g ∈ c.factors, g.isCurrent = true → g.sharesSlot f = false := by
  rw [current?, List.find?_eq_none]
  refine forall₂_congr fun g _ => ?_
  cases g.isCurrent <;> simp

/-- What a catalog accepts, said without the search for a current version. -/
theorem accept_iff_compatible {c : Catalog} {f : Factor} :
    c.accept f = .ok () ↔ (∀ g ∈ c.factors, g.id ≠ f.id) ∧ ∀ g ∈ c.factors, f.Compatible g := by
  rw [accept_eq_ok_iff, current?_eq_none_iff]
  apply and_congr_right
  intro _
  constructor
  · intro h g hg hfc hgc
    rw [Factor.sharesSlot_comm]
    exact h hfc g hg hgc
  · intro h hfc g hg hgc
    rw [Factor.sharesSlot_comm]
    exact h g hg hfc hgc

/-- An accepted factor is the only current one of its slot. -/
theorem oneCurrent_place {c : Catalog} {f : Factor} (h : OneCurrent c.factors)
    (ha : c.accept f = .ok ()) : OneCurrent (place f c.factors) := by
  have hfirst : OneCurrent (f :: c.factors) :=
    List.pairwise_cons.mpr ⟨(accept_iff_compatible.mp ha).2, h⟩
  exact hfirst.perm (place_perm f c.factors).symm

theorem sound_place {c : Catalog} {f : Factor} (h : c.Sound) (ha : c.accept f = .ok ()) :
    Sound ⟨place f c.factors⟩ :=
  sound_iff.mpr ⟨ascending_place h.ascending (accept_iff_compatible.mp ha).1,
    oneCurrent_place (sound_iff.mp h).2 ha⟩

/-- Below the greatest id the sum does not wrap. -/
theorem toInt_succ_of_ne_maxValue {n : Int64} (h : n ≠ Int64.maxValue) :
    (n + 1).toInt = n.toInt + 1 := by
  have hlt : n.toInt < 2 ^ 63 - 1 := by
    rw [← Int64.toInt_maxValue, ← Int64.lt_iff_toInt_lt]
    exact Int64.lt_of_le_of_ne (Int64.le_maxValue n) h
  have hge := n.le_toInt
  rw [Int64.toInt_add, Int64.toInt_one]
  apply Int.bmod_eq_of_le_mul_two
  · omega
  · omega

theorem lt_succ_of_ne_maxValue {n : Int64} (h : n ≠ Int64.maxValue) : n < n + 1 := by
  rw [Int64.lt_iff_toInt_lt, toInt_succ_of_ne_maxValue h]
  omega

/-- Taking the greater of two ids again and again ends at the greatest. -/
theorem greatest_id (r : List Factor) (m : Int64) :
    m ≤ r.foldl (fun m g => if m < g.id then g.id else m) m ∧
    (∀ g ∈ r, g.id ≤ r.foldl (fun m g => if m < g.id then g.id else m) m) ∧
    (r.foldl (fun m g => if m < g.id then g.id else m) m = m ∨
      ∃ g ∈ r, g.id = r.foldl (fun m g => if m < g.id then g.id else m) m) := by
  induction r generalizing m with
  | nil => exact ⟨Int64.le_refl m, fun g hg => absurd hg List.not_mem_nil, Or.inl rfl⟩
  | cons g r ih =>
    rw [List.foldl_cons]
    obtain ⟨hstart, hall, hfrom⟩ := ih (if m < g.id then g.id else m)
    have hm : m ≤ (if m < g.id then g.id else m) ∧ g.id ≤ (if m < g.id then g.id else m) := by
      split
      · next h => exact ⟨Int64.le_of_lt h, Int64.le_refl _⟩
      · next h => exact ⟨Int64.le_refl _, Int64.not_lt.mp h⟩
    refine ⟨Int64.le_trans hm.1 hstart, ?_, ?_⟩
    · intro k hk
      rcases List.mem_cons.mp hk with rfl | hk
      · exact Int64.le_trans hm.2 hstart
      · exact hall k hk
    · rcases hfrom with hfrom | ⟨k, hk, hkid⟩
      · rw [hfrom]
        split
        · exact Or.inr ⟨g, List.mem_cons_self, rfl⟩
        · exact Or.inl rfl
      · exact Or.inr ⟨k, List.mem_cons_of_mem _ hk, hkid⟩

theorem le_maxId {c : Catalog} : ∀ g ∈ c.factors, g.id ≤ c.maxId := by
  obtain ⟨factors⟩ := c
  cases factors with
  | nil => exact List.forall_mem_nil _
  | cons f r =>
    obtain ⟨hstart, hall, _⟩ := greatest_id r f.id
    exact List.forall_mem_cons.mpr ⟨hstart, hall⟩

/-- The greatest id is the id of some factor, unless the catalog is empty. -/
theorem exists_id_eq_maxId {c : Catalog} (h : c.factors ≠ []) :
    ∃ g ∈ c.factors, g.id = c.maxId := by
  obtain ⟨factors⟩ := c
  cases factors with
  | nil => exact absurd rfl h
  | cons f r =>
    rcases (greatest_id r f.id).2.2 with hfirst | ⟨g, hg, hid⟩
    · exact ⟨f, List.mem_cons_self, hfirst.symm⟩
    · exact ⟨g, List.mem_cons_of_mem _ hg, hid⟩

/-- A catalog runs out of ids when one of its factors has the last. -/
theorem nextId?_eq_none_iff {c : Catalog} :
    c.nextId? = none ↔ ∃ f ∈ c.factors, f.id = Int64.maxValue := by
  have hfull : c.nextId? = none ↔ c.maxId = Int64.maxValue := by simp [nextId?, idAfter?]
  rw [hfull]
  constructor
  · intro hmax
    have hne : c.factors ≠ [] := by
      intro hnil
      rw [maxId, hnil] at hmax
      exact absurd hmax (by decide)
    obtain ⟨g, hg, hid⟩ := exists_id_eq_maxId hne
    exact ⟨g, hg, hid.trans hmax⟩
  · rintro ⟨g, hg, hid⟩
    exact Int64.le_antisymm (Int64.le_maxValue _) (hid ▸ le_maxId g hg)

theorem nextId?_eq_some {c : Catalog} {id : Int64} (h : c.nextId? = some id) :
    c.maxId ≠ Int64.maxValue ∧ id = c.maxId + 1 := by
  rw [nextId?, idAfter?, Option.ite_none_left_eq_some, Option.some.injEq] at h
  exact ⟨h.1, h.2.symm⟩

/-- A fresh id lies above all ids of the catalog. -/
theorem lt_of_nextId? {c : Catalog} {id : Int64} (h : c.nextId? = some id) :
    ∀ g ∈ c.factors, g.id < id := by
  obtain ⟨hroom, rfl⟩ := nextId?_eq_some h
  exact fun g hg => Int64.lt_of_le_of_lt (le_maxId g hg) (lt_succ_of_ne_maxValue hroom)

/-- What is still current after a replacement was not ended by it, and is as it was. -/
theorem endFor_of_isCurrent {d : Draft} {g : Factor} (h : (endFor d g).isCurrent = true) :
    endFor d g = g ∧ endedBy d g = false := by
  rw [endFor] at *
  split at h
  · cases h
  · next hn => exact ⟨if_neg hn, by simpa using hn⟩

theorem not_sharesSlot_inserted {d : Draft} {g : Factor} (hg : g.isCurrent = true)
    (h : endedBy d g = false) (id : Int64) : g.sharesSlot (d.toFactor id) = false := by
  rw [endedBy, hg, Bool.true_and] at h
  exact h

/-- A draft retires the factors of its slot, so it is the only current one there. -/
theorem oneCurrent_renewed {c : Catalog} (h : OneCurrent c.factors) (d : Draft) (id : Int64) :
    OneCurrent (c.renewed d id).factors := by
  refine List.pairwise_append.mpr ⟨?_, List.pairwise_singleton _ _, ?_⟩
  · rw [List.pairwise_map]
    refine h.imp ?_
    intro f g hfg hf hg
    have hsame := (endFor_of_isCurrent hf).1
    have hsame' := (endFor_of_isCurrent hg).1
    rw [hsame, hsame']
    exact hfg (hsame ▸ hf) (hsame' ▸ hg)
  · -- What is still current is no version of the draft.
    intro g hg k hk hgc _
    obtain ⟨f, _, rfl⟩ := List.mem_map.mp hg
    obtain ⟨hsame, hended⟩ := endFor_of_isCurrent hgc
    rw [List.mem_singleton.mp hk]
    rw [hsame] at hgc ⊢
    exact not_sharesSlot_inserted hgc hended _

/-- A renewed catalog stays in id order: the draft is appended with the greatest id. -/
theorem ascending_renewed {c : Catalog} {d : Draft} {id : Int64}
    (h : c.factors.Pairwise fun f g => f.id < g.id) (hid : c.nextId? = some id) :
    (c.renewed d id).factors.Pairwise fun f g => f.id < g.id := by
  refine List.pairwise_append.mpr ⟨?_, List.pairwise_singleton _ _, ?_⟩
  · rw [List.pairwise_map]
    simpa only [id_endFor] using h
  · intro k hk g hg
    obtain ⟨f, hf, rfl⟩ := List.mem_map.mp hk
    rw [List.mem_singleton.mp hg, id_endFor]
    exact lt_of_nextId? hid f hf

theorem sound_renewed {c : Catalog} {d : Draft} {id : Int64} (h : c.Sound)
    (hid : c.nextId? = some id) : (c.renewed d id).Sound :=
  sound_iff.mpr ⟨ascending_renewed h.ascending hid, oneCurrent_renewed (sound_iff.mp h).2 d id⟩

/-- Every call, failed or not, keeps the catalog sound. -/
theorem sound_call {c : Catalog} (h : c.Sound) (x : Call) : (x.write.on c).2.Sound := by
  rcases x.on_cases c with ⟨e, hon⟩ | ⟨f, rfl, ha, hon⟩ | ⟨d, id, rfl, hid, _, hon⟩
  · rw [hon]
    exact h
  · rw [hon]
    exact sound_place h ha
  · rw [hon]
    exact sound_renewed h hid

theorem Reached.sound {c : Catalog} (h : Reached c) : c.Sound := by
  induction h with
  | empty => exact ⟨List.Pairwise.nil, fun f hf => absurd hf List.not_mem_nil⟩
  | call x _ _ ih => exact sound_call ih x

/-- What calls leave of an empty catalog, whether they succeed or fail. -/
def afterCalls (calls : List Call) : Catalog :=
  calls.foldl (fun c x => (x.write.on c).2) empty

theorem sound_afterCalls (calls : List Call) : (afterCalls calls).Sound :=
  List.foldlRecOn calls _ Reached.empty.sound fun _ h x _ => sound_call h x

theorem oneCurrent_afterCalls (calls : List Call) : OneCurrent (afterCalls calls).factors :=
  (sound_iff.mp (sound_afterCalls calls)).2

/-- A call does not return exactly if it needs an id and there is none left. -/
theorem Call.overflows_iff (x : Call) (c : Catalog) :
    (x.write.on c).1 = .error .overflow ↔ ¬ x.HasRoom c := by
  cases x with
  | enter f =>
    have hon : (Call.enter f).write.on c = _ := Write.on_adapt Halt.refused (Catalog.enter f) c
    rw [hon]
    refine iff_of_false ?_ (not_not_intro trivial)
    cases (Catalog.enter f).on c with
    | mk answer after => cases answer <;> simp [Except.mapError]
  | renew d =>
    have hon : (Call.renew d).write.on c = _ := Write.on_map (fun _ => ()) (Catalog.renew d) c
    have hroom : ¬ (Call.renew d).HasRoom c ↔ c.nextId? = none := by
      simp [HasRoom, nextId?_eq_none_iff]
    rw [hon, hroom]
    rcases renew_cases d c with ⟨hid, h⟩ | ⟨id, hid, ⟨g, _, _, _, h⟩ | ⟨_, h⟩⟩
    · exact iff_of_true (by rw [h]; rfl) hid
    · refine iff_of_false ?_ ?_ <;> simp [h, hid, Functor.map, Except.map]
    · refine iff_of_false ?_ ?_ <;> simp [h, hid, Functor.map, Except.map]

/-- After every call of a run the ids ascend and no two current factors are versions of each other,
and a call that failed has left the factors as they were. As long as there are ids left, every call
returns. -/
theorem run_keeps_catalog_sound {c : Catalog} (hc : Reached c) (x : Call) (hx : x.HasRoom c) :
    (x.write.on c).2.Sound ∧
      (∀ e, (x.write.on c).1 = .error e → (x.write.on c).2.factors = c.factors) ∧
      (x.write.on c).1 ≠ .error .overflow := by
  refine ⟨sound_call hc.sound x, ?_, fun h => (x.overflows_iff c).mp h hx⟩
  intro e he
  rcases x.on_cases c with ⟨_, hon⟩ | ⟨_, _, _, hon⟩ | ⟨_, _, _, _, _, hon⟩
  · rw [hon]
  · rw [hon] at he
    cases he
  · rw [hon] at he
    cases he

def anyTrain (id : Int64) : Factor := ⟨id, .train, .empty, .empty, default, none⟩

/-- A draft without labels replaces the train factor that has none. -/
theorem run_renews_any_train :
    let c := ((Call.enter (anyTrain 7)).write.on empty).2
    let x := Call.renew ⟨.train, .empty, .empty, ⟨1, 0⟩⟩
    Reached c ∧ x.HasRoom c ∧ (x.write.on c).2.factors.map (·.id) = [7, 8] ∧
      (x.write.on c).2.Sound := by
  intro c x
  have hc : Reached c := Reached.empty.call _ trivial
  have hx : x.HasRoom c := by
    intro f hf
    rw [List.mem_singleton.mp hf]
    decide
  exact ⟨hc, hx, rfl, (run_keeps_catalog_sound hc x hx).1⟩

end Catalog
end CarbonLedger
