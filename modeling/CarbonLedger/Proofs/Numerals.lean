import CarbonLedger.Decimal.Read
import Mathlib.Data.List.TakeWhile
import Mathlib.Tactic.Tauto

namespace CarbonLedger.Decimal

def AreDigits (cs : List Char) : Prop := ∀ c ∈ cs, c.isDigit = true

inductive IsSign : List Char → Prop
  | absent : IsSign []
  | plus : IsSign ['+']
  | minus : IsSign ['-']

inductive IsPlaces : List Char → Prop
  | whole {ds : List Char} (h : AreDigits ds) (hsome : ds ≠ []) : IsPlaces ds
  | pointed {ds fs : List Char} (h : AreDigits ds) (k : AreDigits fs)
    (hsome : ds ≠ [] ∨ fs ≠ []) :
    IsPlaces (ds ++ '.' :: fs)

inductive IsPower : List Char → Prop
  | signed {sign ds : List Char} (hsign : IsSign sign) (h : AreDigits ds) (hsome : ds ≠ []) :
    IsPower (sign ++ ds)

inductive IsExponent : List Char → Prop
  | absent : IsExponent []
  | power {e : Char} {cs : List Char} (he : e = 'e' ∨ e = 'E') (h : IsPower cs) :
    IsExponent (e :: cs)

inductive IsUnsigned : List Char → Prop
  | number {cs xs : List Char} (h : IsPlaces cs) (hx : IsExponent xs) : IsUnsigned (cs ++ xs)

def IsName (cs : List Char) : Prop :=
  cs.map Char.toLower ∈ ["inf".toList, "infinity".toList, "nan".toList]

inductive IsNumeral : String → Prop
  | of {s : String} {sign cs : List Char} (hs : s.toList = sign ++ cs) (hsign : IsSign sign)
    (h : IsName cs ∨ IsUnsigned cs) : IsNumeral s

theorem areDigits_takeWhile (cs : List Char) : AreDigits (cs.takeWhile Char.isDigit) :=
  fun _ hc => List.mem_takeWhile_imp hc

def EndsDigits (cs : List Char) : Prop := ∀ c ∈ cs.head?, c.isDigit = false

/-- Digits are taken up to where they end. -/
theorem takeWhile_digits {ds cs : List Char} (h : AreDigits ds) (hcs : EndsDigits cs) :
    (ds ++ cs).takeWhile Char.isDigit = ds ∧ (ds ++ cs).dropWhile Char.isDigit = cs := by
  rw [List.takeWhile_append_of_pos h, List.dropWhile_append_of_pos h]
  cases cs with
  | nil => simp
  | cons c r =>
    have hc : ¬ c.isDigit = true := by simp [hcs c rfl]
    rw [List.takeWhile_cons_of_neg hc, List.dropWhile_cons_of_neg hc, List.append_nil]
    exact ⟨rfl, rfl⟩

theorem IsExponent.endsDigits {xs : List Char} (h : IsExponent xs) : EndsDigits xs := by
  cases h with
  | absent => exact nofun
  | power he _ =>
    intro c hc
    cases hc
    rcases he with rfl | rfl <;> rfl

/-- A sign is taken off what does not start with one. -/
theorem splitSign_append {sign cs : List Char} (hsign : IsSign sign)
    (hcs : ∀ c ∈ cs.head?, c ≠ '-' ∧ c ≠ '+') : (splitSign (sign ++ cs)).2 = cs := by
  cases hsign with
  | absent =>
    rw [List.nil_append, splitSign.eq_def]
    split
    · exact absurd rfl (hcs _ rfl).1
    · exact absurd rfl (hcs _ rfl).2
    · rfl
  | plus => rfl
  | minus => rfl

theorem exists_isSign_splitSign (cs : List Char) :
    ∃ sign, IsSign sign ∧ cs = sign ++ (splitSign cs).2 := by
  rw [splitSign.eq_def]
  split
  · exact ⟨_, .minus, rfl⟩
  · exact ⟨_, .plus, rfl⟩
  · exact ⟨_, .absent, rfl⟩

theorem not_sign_of_isDigit {c : Char} (h : c.isDigit = true) : c ≠ '-' ∧ c ≠ '+' := by
  constructor <;> rintro rfl <;> cases h

theorem isSome_exponentOf?_iff {cs : List Char} : (exponentOf? cs).isSome = true ↔ IsPower cs := by
  have hsplit : (exponentOf? cs).isSome = true ↔
      (splitSign cs).2 ≠ [] ∧ AreDigits (splitSign cs).2 := by
    rw [exponentOf?]
    split
    next => simp_all [AreDigits]
  rw [hsplit]
  constructor
  · rintro ⟨hsome, hdigits⟩
    obtain ⟨sign, hsign, hcs⟩ := exists_isSign_splitSign cs
    rw [hcs]
    exact .signed hsign hdigits hsome
  · rintro ⟨hsign, hdigits, hsome⟩
    rw [splitSign_append hsign fun c hc =>
      not_sign_of_isDigit (hdigits c (List.mem_of_mem_head? hc))]
    exact ⟨hsome, hdigits⟩

/-- There have to be digits, and what follows them has to be an exponent. -/
theorem isSome_number_iff (whole fraction xs : List Char) (number : Int → Float) :
    (if whole.isEmpty && fraction.isEmpty then none
      else match xs with
        | [] => some (number 0)
        | c :: r =>
          if c == 'e' || c == 'E' then (exponentOf? r).map number else none).isSome = true ↔
      (whole ≠ [] ∨ fraction ≠ []) ∧ IsExponent xs := by
  have hempty : ¬ (whole.isEmpty && fraction.isEmpty) = true ↔ whole ≠ [] ∨ fraction ≠ [] := by
    simp [or_iff_not_imp_left]
  split
  · next h => exact iff_of_false Bool.false_ne_true fun k => hempty.mpr k.1 h
  · next h =>
    rw [and_iff_right (hempty.mp h)]
    cases xs with
    | nil => exact iff_of_true rfl .absent
    | cons c r =>
      dsimp only
      split
      · next he =>
        rw [Option.isSome_map, isSome_exponentOf?_iff]
        constructor
        · exact .power (by simpa using he)
        · rintro (_ | ⟨_, h⟩)
          exact h
      · next he =>
        refine iff_of_false Bool.false_ne_true ?_
        rintro (_ | ⟨hletter, _⟩)
        exact he (by simpa using hletter)

theorem isSome_unsigned?_of_point {cs r : List Char} (h : cs.dropWhile Char.isDigit = '.' :: r) :
    (unsigned? cs).isSome = true ↔
      (cs.takeWhile Char.isDigit ≠ [] ∨ r.takeWhile Char.isDigit ≠ []) ∧
        IsExponent (r.dropWhile Char.isDigit) := by
  rw [unsigned?, h]
  exact isSome_number_iff _ _ _ fun e =>
    nearest (ofDigits (cs.takeWhile Char.isDigit ++ r.takeWhile Char.isDigit))
      (e - (r.takeWhile Char.isDigit).length)

theorem isSome_unsigned?_of_whole {cs : List Char}
    (h : ∀ r, cs.dropWhile Char.isDigit ≠ '.' :: r) :
    (unsigned? cs).isSome = true ↔
      cs.takeWhile Char.isDigit ≠ [] ∧ IsExponent (cs.dropWhile Char.isDigit) := by
  rw [unsigned?]
  split
  next fraction rest hparts =>
    split at hparts
    · next r hr => exact absurd hr (h r)
    · cases hparts
      have hnumber := isSome_number_iff (cs.takeWhile Char.isDigit) [] (cs.dropWhile Char.isDigit)
        fun e => nearest (ofDigits (cs.takeWhile Char.isDigit ++ [])) (e - ([] : List Char).length)
      exact hnumber.trans (by simp)

/-- The scanner takes the digits, point and exponent of an unsigned numeral. -/
theorem isSome_unsigned?_iff {cs : List Char} : (unsigned? cs).isSome = true ↔ IsUnsigned cs := by
  constructor
  · intro h
    rw [← List.takeWhile_append_dropWhile (p := Char.isDigit) (l := cs)]
    by_cases hpoint : ∃ r, cs.dropWhile Char.isDigit = '.' :: r
    · obtain ⟨r, hr⟩ := hpoint
      obtain ⟨hsome, hx⟩ := (isSome_unsigned?_of_point hr).mp h
      have hplaces : IsPlaces (cs.takeWhile Char.isDigit ++ '.' :: r.takeWhile Char.isDigit) :=
        .pointed (areDigits_takeWhile cs) (areDigits_takeWhile r) hsome
      have hparts := IsUnsigned.number hplaces hx
      rwa [List.append_assoc, List.cons_append, List.takeWhile_append_dropWhile, ← hr] at hparts
    · obtain ⟨hsome, hx⟩ := (isSome_unsigned?_of_whole (not_exists.mp hpoint)).mp h
      exact .number (.whole (areDigits_takeWhile cs) hsome) hx
  · rintro ⟨hplaces, hx⟩
    cases hplaces with
    | @whole ds hdigits hsome =>
      obtain ⟨htake, hdrop⟩ := takeWhile_digits hdigits hx.endsDigits
      refine (isSome_unsigned?_of_whole ?_).mpr ?_
      · rw [hdrop]
        rintro r rfl
        cases hx with
        | power he _ => simp at he
      · rw [htake, hdrop]
        exact ⟨hsome, hx⟩
    | @pointed ds fs hdigits hfraction hsome =>
      rename_i xs
      obtain ⟨hfs, hxs⟩ := takeWhile_digits hfraction hx.endsDigits
      have hpoint : EndsDigits ('.' :: (fs ++ xs)) := by
        intro c hc
        cases hc
        rfl
      obtain ⟨htake, hdrop⟩ := takeWhile_digits hdigits hpoint
      rw [List.append_assoc, List.cons_append, isSome_unsigned?_of_point hdrop, htake, hfs, hxs]
      exact ⟨hsome, hx⟩

/-- The scanner takes the names of infinity and of what is not a number. -/
theorem isSome_named?_iff {cs : List Char} : (named? cs).isSome = true ↔ IsName cs := by
  have hname (t : String) :
      (String.ofList (cs.map Char.toLower) == t) = true ↔ cs.map Char.toLower = t.toList := by
    rw [beq_iff_eq, ← String.toList_inj, String.toList_ofList]
  rw [named?, IsName]
  simp only [hname, Bool.or_eq_true, List.mem_cons, List.not_mem_nil, or_false]
  split
  · next h => exact iff_of_true rfl (by tauto)
  · split
    · next h => exact iff_of_true rfl (by tauto)
    · next h => exact iff_of_false Bool.false_ne_true (by tauto)

theorem IsPlaces.exists_first {cs : List Char} (h : IsPlaces cs) :
    ∃ c r, cs = c :: r ∧ (c.isDigit = true ∨ c = '.') := by
  cases h with
  | whole hdigits hsome =>
    obtain ⟨c, r, rfl⟩ := List.exists_cons_of_ne_nil hsome
    exact ⟨c, r, rfl, Or.inl (hdigits c List.mem_cons_self)⟩
  | @pointed ds fs hdigits hfraction _ =>
    cases ds with
    | nil => exact ⟨_, _, rfl, Or.inr rfl⟩
    | cons c r => exact ⟨c, _, rfl, Or.inl (hdigits c List.mem_cons_self)⟩

/-- No sign starts a name or a number without a sign. -/
theorem not_sign_of_unsigned {cs : List Char} (h : IsName cs ∨ IsUnsigned cs) :
    ∀ c ∈ cs.head?, c ≠ '-' ∧ c ≠ '+' := by
  rcases h with h | ⟨hplaces, hx⟩
  · cases cs with
    | nil => exact nofun
    | cons d r =>
      rintro c ⟨⟩
      constructor
      · rintro rfl
        simp [IsName] at h
      · rintro rfl
        simp [IsName] at h
  · obtain ⟨d, r, rfl, hd⟩ := hplaces.exists_first
    rintro c ⟨⟩
    rcases hd with hd | rfl
    · exact not_sign_of_isDigit hd
    · decide

/-- A text is read as a number exactly if it is a sign and a name or number behind it. -/
theorem isSome_ofText?_iff {s : String} : (ofText? s).isSome = true ↔ IsNumeral s := by
  have hsplit : (ofText? s).isSome = true ↔
      IsName (splitSign s.toList).2 ∨ IsUnsigned (splitSign s.toList).2 := by
    rw [ofText?, Option.isSome_map, Option.isSome_or, Bool.or_eq_true, isSome_named?_iff,
      isSome_unsigned?_iff]
  rw [hsplit]
  constructor
  · intro h
    obtain ⟨sign, hsign, hs⟩ := exists_isSign_splitSign s.toList
    exact .of hs hsign h
  · rintro ⟨hs, hsign, h⟩
    rw [hs, splitSign_append hsign (not_sign_of_unsigned h)]
    exact h

end CarbonLedger.Decimal
