namespace CarbonLedger.Text

def isBlankChar (c : Char) : Bool :=
  let n := c.toNat
  (0x9 ≤ n && n ≤ 0xD) || n == 0x20 || n == 0x85 || n == 0xA0 || n == 0x1680 ||
    (0x2000 ≤ n && n ≤ 0x200A) || n == 0x2028 || n == 0x2029 || n == 0x202F || n == 0x205F ||
    n == 0x3000

def dropEndWhile {α : Type} (p : α → Bool) (l : List α) : List α :=
  (l.reverse.dropWhile p).reverse

def trimChars (cs : List Char) : List Char :=
  dropEndWhile isBlankChar (cs.dropWhile isBlankChar)

def trim (s : String) : String := String.ofList (trimChars s.toList)

def isBlank (s : String) : Bool := s.toList.all isBlankChar

/-- The trimmed text, if there is anything in it. A blank text counts as absent. -/
def filled? (s : String) : Option String :=
  if isBlank s then none else some (trim s)

theorem dropWhile_eq_nil_iff_all {α : Type} {p : α → Bool} {l : List α} :
    l.dropWhile p = [] ↔ ∀ a ∈ l, p a = true := by
  induction l with
  | nil => simp
  | cons a r ih => by_cases h : p a = true <;> simp [h, ih]

/-- What `dropWhile` leaves is empty or starts with something that it keeps. -/
theorem dropWhile_head {α : Type} {p : α → Bool} {l r : List α} {a : α}
    (h : l.dropWhile p = a :: r) : p a = false := by
  induction l with
  | nil => simp at h
  | cons b t ih =>
    by_cases hb : p b = true
    · exact ih (by simpa [hb] using h)
    · have h' : b :: t = a :: r := by simpa [hb] using h
      obtain ⟨rfl, -⟩ := List.cons.inj h'
      simpa using hb

theorem dropWhile_dropWhile {α : Type} {p : α → Bool} (l : List α) :
    (l.dropWhile p).dropWhile p = l.dropWhile p := by
  cases h : l.dropWhile p with
  | nil => rfl
  | cons a r => simp [dropWhile_head h]

theorem dropEndWhile_eq_nil_iff {α : Type} {p : α → Bool} {l : List α} :
    dropEndWhile p l = [] ↔ ∀ a ∈ l, p a = true := by
  simp only [dropEndWhile, List.reverse_eq_nil_iff, dropWhile_eq_nil_iff_all, List.mem_reverse]

/-- The two cuts do not get in each other's way. -/
theorem dropWhile_dropEndWhile {α : Type} {p : α → Bool} (l : List α) :
    (dropEndWhile p (l.dropWhile p)).dropWhile p = dropEndWhile p (l.dropWhile p) := by
  cases h : l.dropWhile p with
  | nil => simp [dropEndWhile]
  | cons a r =>
    have ha : p a = false := dropWhile_head h
    have hr : (r.reverse ++ [a]).dropWhile p = r.reverse.dropWhile p ++ [a] := by
      rw [List.dropWhile_append]
      cases r.reverse.dropWhile p <;> simp [ha]
    simp [dropEndWhile, hr, ha]

theorem trimChars_trimChars (cs : List Char) : trimChars (trimChars cs) = trimChars cs := by
  rw [trimChars, trimChars, dropWhile_dropEndWhile]
  simp [dropEndWhile, dropWhile_dropWhile]

theorem trimChars_eq_nil_iff {cs : List Char} :
    trimChars cs = [] ↔ ∀ c ∈ cs, isBlankChar c = true := by
  rw [trimChars, dropEndWhile_eq_nil_iff, ← dropWhile_eq_nil_iff_all, dropWhile_dropWhile,
    dropWhile_eq_nil_iff_all]

@[simp]
theorem toList_trim (s : String) : (trim s).toList = trimChars s.toList := by
  simp [trim]

/-- Trimming twice is trimming once. -/
@[simp]
theorem trim_trim (s : String) : trim (trim s) = trim s := by
  rw [trim, toList_trim, trimChars_trimChars, trim]

/-- A text is blank exactly when trimming leaves nothing of it. -/
theorem isBlank_iff_trim_eq {s : String} : isBlank s = true ↔ trim s = "" := by
  rw [isBlank, List.all_eq_true, ← trimChars_eq_nil_iff, trim, ← String.toList_inj]
  simp

end CarbonLedger.Text
