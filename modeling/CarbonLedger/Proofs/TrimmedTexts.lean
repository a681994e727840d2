import CarbonLedger.Text.Blank
import Mathlib.Data.List.TakeWhile

namespace CarbonLedger.Text

theorem dropEndWhile_append {α : Type} {p : α → Bool} (l : List α) {m : List α}
    (h : ∀ a ∈ m, p a = true) : dropEndWhile p (l ++ m) = dropEndWhile p l := by
  have hm : ∀ a ∈ m.reverse, p a = true := fun a ha => h a (List.mem_reverse.mp ha)
  rw [dropEndWhile, List.reverse_append, List.dropWhile_append_of_pos hm, dropEndWhile]

/-- Blanks around a list of characters are cut with those that are there already. -/
theorem trimChars_append {before after : List Char} (cs : List Char)
    (hbefore : ∀ c ∈ before, isBlankChar c = true) (hafter : ∀ c ∈ after, isBlankChar c = true) :
    trimChars (before ++ cs ++ after) = trimChars cs := by
  rw [trimChars, List.append_assoc, List.dropWhile_append_of_pos hbefore, List.dropWhile_append]
  split
  · next h =>
    have hcs : cs.dropWhile isBlankChar = [] := by simpa using h
    rw [dropWhile_eq_nil_iff_all.mpr hafter, trimChars, hcs]
  · rw [dropEndWhile_append _ hafter, trimChars]

/-- The part of a text that only blanks stand around and that has none at its ends. -/
structure IsCore (s t : String) : Prop where
  around : ∃ before after, isBlank before = true ∧ isBlank after = true ∧ s = before ++ t ++ after
  first : ∀ c ∈ t.toList.head?, isBlankChar c = false
  last : ∀ c ∈ t.toList.getLast?, isBlankChar c = false

theorem isBlank_ofList {cs : List Char} (h : ∀ c ∈ cs, isBlankChar c = true) :
    isBlank (String.ofList cs) = true := by
  rw [isBlank, String.toList_ofList]
  exact List.all_eq_true.mpr h

/-- Trimming takes blanks off both ends. -/
theorem trim_append {before after : String} (s : String) (hbefore : isBlank before = true)
    (hafter : isBlank after = true) : trim (before ++ s ++ after) = trim s := by
  rw [isBlank, List.all_eq_true] at hbefore hafter
  rw [trim, String.toList_append, String.toList_append, trimChars_append _ hbefore hafter, trim]

theorem head?_trimChars {cs : List Char} : ∀ c ∈ (trimChars cs).head?, isBlankChar c = false := by
  intro c hc
  cases h : trimChars cs with
  | nil => simp [h] at hc
  | cons d r =>
    have hd : d = c := by simpa [h] using hc
    have hdrop : (trimChars cs).dropWhile isBlankChar = d :: r := by
      rw [trimChars, dropWhile_dropEndWhile, ← trimChars, h]
    exact hd ▸ dropWhile_head hdrop

theorem getLast?_dropEndWhile {α : Type} {p : α → Bool} {l : List α} :
    ∀ a ∈ (dropEndWhile p l).getLast?, p a = false := by
  intro a ha
  rw [dropEndWhile, List.getLast?_reverse] at ha
  cases h : l.reverse.dropWhile p with
  | nil => simp [h] at ha
  | cons b r =>
    have hb : b = a := by simpa [h] using ha
    exact hb ▸ dropWhile_head h

/-- A list of characters without blanks at its ends is left as it is. -/
theorem trimChars_eq_self {cs : List Char} (hfirst : ∀ c ∈ cs.head?, isBlankChar c = false)
    (hlast : ∀ c ∈ cs.getLast?, isBlankChar c = false) : trimChars cs = cs := by
  have hkept (l : List Char) (h : ∀ c ∈ l.head?, isBlankChar c = false) :
      l.dropWhile isBlankChar = l := by
    cases l with
    | nil => rfl
    | cons c r => rw [List.dropWhile_cons_of_neg (by simp [h c rfl])]
  rw [trimChars, hkept cs hfirst, dropEndWhile, hkept cs.reverse (by simpa using hlast),
    List.reverse_reverse]

/-- What trimming leaves of a text is the one part that is its core. -/
theorem isCore_iff_trim_eq {s t : String} : IsCore s t ↔ trim s = t := by
  constructor
  · rintro ⟨⟨before, after, hbefore, hafter, rfl⟩, hfirst, hlast⟩
    rw [trim_append t hbefore hafter, trim, trimChars_eq_self hfirst hlast, String.ofList_toList]
  · rintro rfl
    refine ⟨?_, ?_, ?_⟩
    · let behind := s.toList.dropWhile isBlankChar
      refine ⟨String.ofList (s.toList.takeWhile isBlankChar),
        String.ofList (behind.reverse.takeWhile isBlankChar).reverse,
        isBlank_ofList fun c hc => List.mem_takeWhile_imp hc,
        isBlank_ofList fun c hc => List.mem_takeWhile_imp (List.mem_reverse.mp hc), ?_⟩
      apply String.toList_inj.mp
      simp only [String.toList_append, String.toList_ofList, toList_trim, trimChars, dropEndWhile]
      rw [List.append_assoc, ← List.reverse_append, List.takeWhile_append_dropWhile,
        List.reverse_reverse, List.takeWhile_append_dropWhile]
    · rw [toList_trim]
      exact head?_trimChars
    · rw [toList_trim]
      exact getLast?_dropEndWhile

end CarbonLedger.Text
