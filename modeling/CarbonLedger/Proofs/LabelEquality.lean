import CarbonLedger.Factor.Basic
import CarbonLedger.Proofs.Doubles
import Mathlib.Data.List.Perm.Subperm

namespace CarbonLedger

instance partialEquivBEq_label : PartialEquivBEq Label where
  symm {a b} h := by
    cases a with
    | text s =>
      cases b with
      | text t => exact BEq.symm (α := String) h
      | number y => cases h
    | number x =>
      cases b with
      | text t => cases h
      | number y => exact BEq.symm (α := Float) h
  trans {a b c} h k := by
    cases b with
    | text t =>
      cases a with
      | text s =>
        cases c with
        | text u => exact BEq.trans (α := String) h k
        | number z => cases k
      | number x => cases h
    | number y =>
      cases a with
      | text s => cases h
      | number x =>
        cases c with
        | text u => cases k
        | number z => exact BEq.trans (α := Float) h k

section Entries
variable {α β : Type} [BEq α] [BEq β]

theorem pair_beq (a b : α × β) : (a == b) = (a.1 == b.1 && a.2 == b.2) := rfl

variable [PartialEquivBEq α] [PartialEquivBEq β]

instance partialEquivBEq_pair : PartialEquivBEq (α × β) where
  symm {a b} h := by
    rw [pair_beq, Bool.and_eq_true] at *
    exact ⟨BEq.symm h.1, BEq.symm h.2⟩
  trans {a b c} h k := by
    rw [pair_beq, Bool.and_eq_true] at *
    exact ⟨BEq.trans h.1 k.1, BEq.trans h.2 k.2⟩

instance partialEquivBEq_list : PartialEquivBEq (List α) where
  symm {l m} h := by
    induction l generalizing m with
    | nil => cases m with
      | nil => exact h
      | cons b m => cases h
    | cons a l ih => cases m with
      | nil => cases h
      | cons b m =>
        rw [List.cons_beq_cons, Bool.and_eq_true] at *
        exact ⟨BEq.symm h.1, ih h.2⟩
  trans {l m n} h k := by
    induction l generalizing m n with
    | nil => cases m with
      | nil => exact k
      | cons b m => cases h
    | cons a l ih => cases m with
      | nil => cases h
      | cons b m => cases n with
        | nil => cases k
        | cons c n =>
          rw [List.cons_beq_cons, Bool.and_eq_true] at *
          exact ⟨BEq.trans h.1 k.1, ih h.2 k.2⟩

end Entries

instance partialEquivBEq_classification : PartialEquivBEq Classification where
  symm h := BEq.symm (α := List (String × Label)) h
  trans h k := BEq.trans (α := List (String × Label)) h k

namespace KeyMap

variable {α : Type}

theorem keys_eq_of_subset {m n : KeyMap α} (hsize : m.size = n.size)
    (h : n.entries.map (·.1) ⊆ m.entries.map (·.1)) :
    n.entries.map (·.1) = m.entries.map (·.1) := by
  have hperm : (n.entries.map (·.1)).Perm (m.entries.map (·.1)) := by
    apply (List.subperm_of_subset n.nodup_keys h).perm_of_length_le
    rw [List.length_map, List.length_map]
    exact Nat.le_of_eq hsize
  have hasymm (a b : String) (_ : a ∈ n.entries.map (·.1)) (_ : b ∈ m.entries.map (·.1))
      (hab : a < b) (hba : b < a) : a = b :=
    absurd (String.lt_trans hab hba) (String.lt_irrefl a)
  exact List.Perm.eq_of_pairwise hasymm (List.pairwise_map.mpr n.ordered)
    (List.pairwise_map.mpr m.ordered) hperm

variable [BEq α]

theorem findEntry_of_beq {key : String} {v : α} {l m : List (String × α)} (h : (l == m) = true)
    (hv : findEntry key m = some v) : ∃ w, findEntry key l = some w ∧ (w == v) = true := by
  induction l generalizing m with
  | nil => cases m with
    | nil => cases hv
    | cons b m => cases h
  | cons a l ih => cases m with
    | nil => cases h
    | cons b m =>
      rw [List.cons_beq_cons, Bool.and_eq_true, pair_beq, Bool.and_eq_true, beq_iff_eq] at h
      obtain ⟨⟨hkey, hvalue⟩, hrest⟩ := h
      rw [findEntry] at hv ⊢
      rw [hkey]
      split at hv
      · next hk =>
        cases hv
        exact ⟨a.2, if_pos hk, hvalue⟩
      · next hk =>
        rw [if_neg hk]
        exact ih hrest hv

/-- Equal maps have equal values at the same keys. -/
theorem get?_of_beq {m n : KeyMap α} (h : (m == n) = true) {key : String} {v : α}
    (hv : n.get? key = some v) : ∃ w, m.get? key = some w ∧ (w == v) = true :=
  findEntry_of_beq h hv

theorem size_of_beq {m n : KeyMap α} (h : (m == n) = true) : m.size = n.size := by
  have hentries (l k : List (String × α)) (h : (l == k) = true) : l.length = k.length := by
    induction l generalizing k with
    | nil => cases k with
      | nil => rfl
      | cons b k => cases h
    | cons a l ih => cases k with
      | nil => cases h
      | cons b k =>
        rw [List.cons_beq_cons, Bool.and_eq_true] at h
        rw [List.length_cons, List.length_cons, ih k h.2]
  exact hentries _ _ h

theorem beq_of_keys_eq {l m : List (String × α)} (hkeys : m.map (·.1) = l.map (·.1))
    (hnodup : (l.map (·.1)).Nodup)
    (h : ∀ e ∈ m, ∃ w, (e.1, w) ∈ l ∧ (w == e.2) = true) : (l == m) = true := by
  induction l generalizing m with
  | nil =>
    rw [List.map_nil, List.map_eq_nil_iff] at hkeys
    rw [hkeys]
    rfl
  | cons a l ih => cases m with
    | nil => cases hkeys
    | cons b m =>
      rw [List.map_cons, List.map_cons, List.cons.injEq] at hkeys
      obtain ⟨hfirst, hrest⟩ := hkeys
      obtain ⟨ha, hl⟩ := List.nodup_cons.mp hnodup
      rw [List.cons_beq_cons, pair_beq, Bool.and_eq_true, Bool.and_eq_true, beq_iff_eq]
      refine ⟨⟨hfirst.symm, ?_⟩, ih hrest hl ?_⟩
      · obtain ⟨w, hw, hwb⟩ := h b List.mem_cons_self
        rcases List.mem_cons.mp hw with hw | hw
        · rwa [← hw]
        · exact absurd (List.mem_map_of_mem (f := (·.1)) hw) (hfirst ▸ ha)
      · intro e he
        obtain ⟨w, hw, hwe⟩ := h e (List.mem_cons_of_mem _ he)
        rcases List.mem_cons.mp hw with hw | hw
        · have hmem : a.1 ∈ l.map (·.1) := by
            rw [← hrest, ← hw]
            exact List.mem_map_of_mem (f := (·.1)) he
          exact absurd hmem ha
        · exact ⟨w, hw, hwe⟩

/-- Maps of one size are equal if one of them has an equal value under each key of the other. -/
theorem beq_of_get? {m n : KeyMap α} (hsize : m.size = n.size)
    (h : ∀ e ∈ n.entries, ∃ w, m.get? e.1 = some w ∧ (w == e.2) = true) : (m == n) = true := by
  have hmem : ∀ e ∈ n.entries, ∃ w, (e.1, w) ∈ m.entries ∧ (w == e.2) = true := by
    intro e he
    obtain ⟨w, hw, hwe⟩ := h e he
    exact ⟨w, get?_eq_some_iff.mp hw, hwe⟩
  have hkeys := keys_eq_of_subset hsize fun key hkey => by
    obtain ⟨e, he, rfl⟩ := List.mem_map.mp hkey
    obtain ⟨w, hw, _⟩ := hmem e he
    exact List.mem_map.mpr ⟨_, hw, rfl⟩
  exact beq_of_keys_eq hkeys m.nodup_keys hmem

/-- A map equals itself when its values do. -/
theorem beq_self {m : KeyMap α} (h : ∀ e ∈ m.entries, (e.2 == e.2) = true) : (m == m) = true := by
  apply beq_of_get? rfl
  intro e he
  exact ⟨e.2, get?_eq_some_iff.mpr he, h e he⟩

end KeyMap

/-- A label equals itself if its number does, and always if it is a text. -/
theorem Label.beq_self {a : Label} (h : ∀ x, a = .number x → (x == x) = true) :
    (a == a) = true := by
  cases a with
  | text s => exact beq_self_eq_true s
  | number x => exact h x rfl

/-- Being versions of each other does not depend on the order of the two factors. -/
theorem Factor.sharesSlot_comm (f g : Factor) : f.sharesSlot g = g.sharesSlot f := by
  rw [sharesSlot, sharesSlot, BEq.comm (a := f.kind), BEq.comm (a := f.classification)]

end CarbonLedger
