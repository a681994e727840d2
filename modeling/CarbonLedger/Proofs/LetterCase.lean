import CarbonLedger.Text.Blank
import CarbonLedger.Text.Case

namespace CarbonLedger.Text

def letters : List Char := "ABCDEFGHIJKLMNOPQRSTUVWXYZabcdefghijklmnopqrstuvwxyz".toList

theorem case_eq_or_mem (c : Char) : c.toUpper = c ∧ c.toLower = c ∨ c ∈ letters := by
  by_cases h : c.toNat < 123
  · have hall : ∀ n < 123, (Char.ofNat n).toUpper = Char.ofNat n ∧
        (Char.ofNat n).toLower = Char.ofNat n ∨ Char.ofNat n ∈ letters := by decide
    have hcase := hall c.toNat h
    rwa [Char.ofNat_toNat] at hcase
  · -- Both cases change letters up to `z` alone.
    left
    constructor
    · refine dif_neg fun hsmall => ?_
      have hz : c.toNat ≤ 122 := UInt32.le_iff_toNat_le.mp hsmall.2
      omega
    · refine dif_neg fun hcapital => ?_
      have hz : c.toNat ≤ 90 := UInt32.le_iff_toNat_le.mp hcapital.2
      omega

/-- What holds of a character that keeps its case, and of all letters, holds of every character. -/
theorem forall_case {p : Char → Prop} [DecidablePred p]
    (hkept : ∀ c : Char, c.toUpper = c → c.toLower = c → p c)
    (hletters : letters.all (fun c => decide (p c)) = true) (c : Char) : p c := by
  rcases case_eq_or_mem c with ⟨hupper, hlower⟩ | hmem
  · exact hkept c hupper hlower
  · exact of_decide_eq_true (List.all_eq_true.mp hletters c hmem)

theorem toUpper_toUpper (c : Char) : c.toUpper.toUpper = c.toUpper := by
  refine forall_case (p := fun c => c.toUpper.toUpper = c.toUpper) ?_ (by decide) c
  intro c hupper _
  rw [hupper, hupper]

theorem toLower_toUpper (c : Char) : c.toUpper.toLower = c.toLower := by
  refine forall_case (p := fun c => c.toUpper.toLower = c.toLower) ?_ (by decide) c
  intro c hupper _
  rw [hupper]

theorem toUpper_toLower (c : Char) : c.toLower.toUpper = c.toUpper := by
  refine forall_case (p := fun c => c.toLower.toUpper = c.toUpper) ?_ (by decide) c
  intro c _ hlower
  rw [hlower]

theorem isBlankChar_toUpper (c : Char) : isBlankChar c.toUpper = isBlankChar c := by
  refine forall_case (p := fun c => isBlankChar c.toUpper = isBlankChar c) ?_ (by decide) c
  intro c hupper _
  rw [hupper]

/-- Blanks have no case, so trimming and upper case can be swapped. -/
theorem trim_upper (s : String) : trim (upper s) = upper (trim s) := by
  have hblank : isBlankChar ∘ Char.toUpper = isBlankChar := funext isBlankChar_toUpper
  apply String.toList_inj.mp
  simp only [toList_trim, upper, String.toList_map, trimChars, dropEndWhile, List.dropWhile_map,
    ← List.map_reverse, hblank]

theorem upper_upper (s : String) : upper (upper s) = upper s := by
  apply String.toList_inj.mp
  simp only [upper, String.toList_map, List.map_map]
  exact List.map_congr_left fun c _ => toUpper_toUpper c

theorem lower_upper (s : String) : lower (upper s) = lower s := by
  apply String.toList_inj.mp
  simp only [lower, upper, String.toList_map, List.map_map]
  exact List.map_congr_left fun c _ => toLower_toUpper c

theorem upper_lower (s : String) : upper (lower s) = upper s := by
  apply String.toList_inj.mp
  simp only [lower, upper, String.toList_map, List.map_map]
  exact List.map_congr_left fun c _ => toUpper_toLower c

/-- Comparing without case does not see whether a text is upper case. -/
theorem sameLetters_upper (s t : String) : sameLetters (upper s) t = sameLetters s t := by
  rw [sameLetters, sameLetters, lower_upper]

/-- Either case serves to compare texts without regard to it. -/
theorem sameLetters_iff_upper {s t : String} : sameLetters s t = true ↔ upper s = upper t := by
  rw [sameLetters_iff]
  constructor
  · intro h
    rw [← upper_lower s, h, upper_lower]
  · intro h
    rw [← lower_upper s, h, lower_upper]

theorem filled?_eq_some_iff {s t : String} : filled? s = some t ↔ trim s = t ∧ t ≠ "" := by
  rw [filled?]
  split
  · next h =>
    have hnone : trim s = "" := isBlank_iff_trim_eq.mp h
    refine iff_of_false nofun ?_
    rintro ⟨rfl, hne⟩
    exact hne hnone
  · next h =>
    rw [isBlank_iff_trim_eq] at h
    rw [Option.some.injEq]
    constructor
    · rintro rfl
      exact ⟨rfl, h⟩
    · exact And.left

/-- What is left of a text has no blanks around it. -/
theorem filled?_of_filled? {s t : String} (h : filled? s = some t) : filled? t = some t := by
  obtain ⟨rfl, hne⟩ := filled?_eq_some_iff.mp h
  exact filled?_eq_some_iff.mpr ⟨trim_trim s, hne⟩

theorem bind_filled?_filled? (o : Option String) :
    (o.bind filled?).bind filled? = o.bind filled? := by
  cases h : o.bind filled? with
  | none => rfl
  | some t =>
    obtain ⟨s, _, hs⟩ := Option.bind_eq_some_iff.mp h
    exact filled?_of_filled? hs

end CarbonLedger.Text
