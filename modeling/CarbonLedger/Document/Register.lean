namespace CarbonLedger

structure Register (α : Type) where
  entries : List (Int64 × α)

namespace Register

variable {α : Type}

def empty : Register α := ⟨[]⟩

instance : Inhabited (Register α) := ⟨empty⟩

def insert (r : Register α) (id : Int64) (a : α) : Register α :=
  ⟨(id, a) :: r.entries.filter fun e => e.1 != id⟩

def find? (r : Register α) (id : Int64) : Option α :=
  (r.entries.find? fun e => e.1 == id).map (·.2)

/-- Entries of one id do not matter for another. -/
theorem find?_filter_ne {id i : Int64} (h : i ≠ id) (entries : List (Int64 × α)) :
    (entries.filter fun e => e.1 != id).find? (fun e => e.1 == i) =
      entries.find? fun e => e.1 == i := by
  induction entries with
  | nil => rfl
  | cons e rest ih =>
    by_cases he : e.1 = id
    · -- The entry is dropped, and it is not the one that is looked for.
      have hi : ¬ e.1 = i := fun hi => h (hi ▸ he)
      rw [List.filter_cons_of_neg (by simp [he]), List.find?_cons_of_neg (by simp [hi]), ih]
    · rw [List.filter_cons_of_pos (by simp [he])]
      by_cases hi : e.1 = i
      · rw [List.find?_cons_of_pos (by simp [hi]), List.find?_cons_of_pos (by simp [hi])]
      · rw [List.find?_cons_of_neg (by simp [hi]), List.find?_cons_of_neg (by simp [hi]), ih]

/-- An id finds the value put in under it last. -/
@[simp]
theorem find?_insert (r : Register α) (id : Int64) (a : α) (i : Int64) :
    (r.insert id a).find? i = if i = id then some a else r.find? i := by
  by_cases h : i = id
  · rw [if_pos h, find?, insert, List.find?_cons_of_pos (by simp [h])]
    rfl
  · have hi : ¬ id = i := fun hi => h hi.symm
    rw [if_neg h, find?, insert, List.find?_cons_of_neg (by simp [hi]), find?_filter_ne h, find?]

end Register

end CarbonLedger
