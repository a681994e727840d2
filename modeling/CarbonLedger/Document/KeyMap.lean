namespace CarbonLedger

def insertEntry {α : Type} (key : String) (value : α) : List (String × α) → List (String × α)
  | [] => [(key, value)]
  | (k, v) :: r =>
    if key < k then (key, value) :: (k, v) :: r
    else if key = k then (key, value) :: r
    else (k, v) :: insertEntry key value r

def findEntry {α : Type} (key : String) : List (String × α) → Option α
  | [] => none
  | (k, v) :: r => if key = k then some v else findEntry key r

def Ordered {α : Type} (entries : List (String × α)) : Prop :=
  entries.Pairwise fun a b => a.1 < b.1

theorem key_lt_of_not_le {j k : String} (h : ¬ j < k) (hne : j ≠ k) : k < j := by
  rw [String.not_lt] at h
  have hk : ¬ j ≤ k := fun hjk => hne (String.le_antisymm hjk h)
  rwa [← String.not_lt, Classical.not_not] at hk

theorem mem_insertEntry {α : Type} {key : String} {value : α} {e : String × α} :
    ∀ {entries : List (String × α)}, e ∈ insertEntry key value entries →
      e = (key, value) ∨ e ∈ entries
  | [], h => by simpa [insertEntry] using h
  | (k, v) :: r, h => by
    rw [insertEntry] at h
    split at h
    · simpa using h
    · split at h
      · rcases List.mem_cons.1 h with h | h
        · exact Or.inl h
        · exact Or.inr (List.mem_cons_of_mem _ h)
      · rcases List.mem_cons.1 h with h | h
        · exact Or.inr (h ▸ List.mem_cons_self)
        · rcases mem_insertEntry h with h | h
          · exact Or.inl h
          · exact Or.inr (List.mem_cons_of_mem _ h)

theorem Ordered.insertEntry {α : Type} (key : String) (value : α) :
    ∀ {entries : List (String × α)}, Ordered entries →
      Ordered (CarbonLedger.insertEntry key value entries)
  | [], _ => by simp [Ordered, CarbonLedger.insertEntry]
  | (k, v) :: r, h => by
    obtain ⟨hk, hr⟩ := List.pairwise_cons.1 h
    rw [CarbonLedger.insertEntry]
    split
    · next hlt =>
      refine List.pairwise_cons.2 ⟨?_, h⟩
      intro e he
      rcases List.mem_cons.1 he with rfl | he
      · exact hlt
      · exact String.lt_trans hlt (hk e he)
    · split
      · next heq => exact List.pairwise_cons.2 ⟨heq ▸ hk, hr⟩
      · next hlt hne =>
        refine List.pairwise_cons.2 ⟨?_, Ordered.insertEntry key value hr⟩
        intro e he
        rcases mem_insertEntry he with rfl | he
        · exact key_lt_of_not_le hlt hne
        · exact hk e he

structure KeyMap (α : Type) where
  entries : List (String × α)
  ordered : Ordered entries

namespace KeyMap

variable {α : Type}

@[ext]
theorem ext {m n : KeyMap α} (h : m.entries = n.entries) : m = n := by
  cases m; cases n; cases h; rfl

def empty : KeyMap α := ⟨[], List.Pairwise.nil⟩

instance : Inhabited (KeyMap α) := ⟨empty⟩

def insert (m : KeyMap α) (key : String) (value : α) : KeyMap α :=
  ⟨insertEntry key value m.entries, m.ordered.insertEntry key value⟩

def ofList (entries : List (String × α)) : KeyMap α :=
  entries.foldl (fun m e => m.insert e.1 e.2) empty

def get? (m : KeyMap α) (key : String) : Option α := findEntry key m.entries

def size (m : KeyMap α) : Nat := m.entries.length

/-- No two entries have one key. -/
theorem nodup_keys (m : KeyMap α) : (m.entries.map (·.1)).Nodup := by
  rw [List.Nodup, List.pairwise_map]
  refine m.ordered.imp ?_
  intro a b h hab
  exact String.lt_irrefl b.1 (hab ▸ h)

theorem findEntry_eq_some_iff {key : String} {value : α} :
    ∀ {entries : List (String × α)}, (entries.map (·.1)).Nodup →
      (findEntry key entries = some value ↔ (key, value) ∈ entries)
  | [], _ => by simp [findEntry]
  | (k, v) :: r, h => by
    obtain ⟨hk, hr⟩ := List.nodup_cons.1 h
    rw [findEntry, List.mem_cons]
    split
    · next heq =>
      subst heq
      have hnot : (key, value) ∉ r := fun he => hk (List.mem_map_of_mem (f := (·.1)) he)
      simp [hnot, eq_comm]
    · next hne => simp [hne, findEntry_eq_some_iff hr]

theorem get?_eq_some_iff {m : KeyMap α} {key : String} {value : α} :
    m.get? key = some value ↔ (key, value) ∈ m.entries :=
  findEntry_eq_some_iff m.nodup_keys

/-- Two maps are equal when they hold equal values under the same keys, by the values' own notion of
equality. -/
instance [BEq α] : BEq (KeyMap α) := ⟨fun m n => m.entries == n.entries⟩

/-- An insertion is seen at its own key and at no other. -/
theorem findEntry_insertEntry (key : String) (value : α) (k : String) :
    ∀ entries : List (String × α), findEntry k (insertEntry key value entries) =
      if k = key then some value else findEntry k entries
  | [] => rfl
  | (l, v) :: r => by
    rw [insertEntry]
    split
    · rfl
    · split
      · next heq => by_cases h : k = key <;> simp [findEntry, ← heq, h]
      · next hne =>
        have ih := findEntry_insertEntry key value k r
        by_cases hl : k = l
        · have hk : k ≠ key := fun hk => hne (hk ▸ hl)
          simp [findEntry, hl, hl ▸ hk]
        · simp [findEntry, hl, ih]

theorem insertEntry_of_all_lt {key : String} {value : α} :
    ∀ {entries : List (String × α)}, (∀ e ∈ entries, e.1 < key) →
      insertEntry key value entries = entries ++ [(key, value)]
  | [], _ => rfl
  | (k, v) :: r, h => by
    have hk : k < key := h (k, v) List.mem_cons_self
    have hr : ∀ e ∈ r, e.1 < key := fun e he => h e (List.mem_cons_of_mem _ he)
    have hne : key ≠ k := fun heq => String.lt_irrefl k (heq ▸ hk)
    rw [insertEntry, if_neg (String.lt_asymm hk), if_neg hne, insertEntry_of_all_lt hr]
    rfl

/-- Entries that come in key order are appended as they come. -/
theorem foldl_insert_append (tail : List (String × α)) :
    ∀ m : KeyMap α, Ordered (m.entries ++ tail) →
      (tail.foldl (fun m e => m.insert e.1 e.2) m).entries = m.entries ++ tail := by
  induction tail with
  | nil => intro m _; simp
  | cons e r ih =>
    intro m h
    have hlt : ∀ f ∈ m.entries, f.1 < e.1 := fun f hf =>
      (List.pairwise_append.1 h).2.2 f hf e List.mem_cons_self
    have hins : (m.insert e.1 e.2).entries = m.entries ++ [e] :=
      insertEntry_of_all_lt hlt
    have h' : Ordered ((m.insert e.1 e.2).entries ++ r) := by
      rw [hins]; simpa using h
    rw [List.foldl_cons, ih _ h', hins]
    simp

/-- Ordered entries make a map of just these entries. -/
theorem entries_ofList {entries : List (String × α)} (h : Ordered entries) :
    (ofList entries).entries = entries := by
  rw [ofList, foldl_insert_append entries empty (by simpa [empty] using h)]
  simp [empty]

/-- Building a map from the entries of a map gives that map back. -/
@[simp]
theorem ofList_entries (m : KeyMap α) : ofList m.entries = m :=
  ext (entries_ofList m.ordered)

end KeyMap

end CarbonLedger
