import CarbonLedger.Factor.Argument
import CarbonLedger.Proofs.LetterCase
import CarbonLedger.Proofs.Numerals
import CarbonLedger.Proofs.ResolutionRank
import CarbonLedger.Proofs.TrimmedTexts

namespace CarbonLedger

structure IsCut (s key value : String) : Prop where
  eq : s = key ++ "=" ++ value
  first : '=' ∉ key.toList

theorem IsCut.toList {s key value : String} (h : IsCut s key value) :
    s.toList = key.toList ++ '=' :: value.toList := by
  rw [h.eq, String.toList_append, String.toList_append, List.append_assoc]
  rfl

/-- An argument is split at its first equals sign. -/
theorem splitAtEquals?_eq_some_iff {s key value : String} :
    splitAtEquals? s = some (key, value) ↔ IsCut s key value := by
  constructor
  · intro h
    rw [splitAtEquals?] at h
    split at h
    · next c r hr =>
      cases h
      have hc : c = '=' := by simpa using Text.dropWhile_head hr
      constructor
      · apply String.toList_inj.mp
        simp only [String.toList_append, String.toList_ofList, List.append_assoc]
        conv_lhs => rw [← List.takeWhile_append_dropWhile (p := (· != '=')) (l := s.toList), hr, hc]
        rfl
      · rw [String.toList_ofList]
        intro hmem
        simpa using List.mem_takeWhile_imp hmem
    · cases h
  · intro h
    have hkey : ∀ c ∈ key.toList, (c != '=') = true := by
      intro c hc
      rw [bne_iff_ne]
      rintro rfl
      exact h.first hc
    simp [splitAtEquals?, h.toList, List.dropWhile_append_of_pos hkey,
      List.takeWhile_append_of_pos hkey]

/-- Only the first cut counts. -/
theorem parseArgument_of_isCut {argument key value : String} (h : IsCut argument key value) :
    parseArgument argument = match Text.filled? key with
      | none => .error (.noKey argument)
      | some key => .ok (key, .ofText (Text.trim value)) := by
  have hcut := splitAtEquals?_eq_some_iff.mpr h
  cases hkey : Text.filled? key <;> simp [parseArgument, hcut, hkey]

/-- Blanks around the parts of an argument lie inside its cut. -/
theorem IsCut.pad {argument key value a b : String} (h : IsCut argument key value)
    (ha : Text.isBlank a = true) (hb : Text.isBlank b = true) (c d : String) :
    IsCut (a ++ key ++ b ++ "=" ++ (c ++ value ++ d)) (a ++ key ++ b) (c ++ value ++ d) := by
  refine ⟨rfl, ?_⟩
  have hnone (s : String) (hs : Text.isBlank s = true) : '=' ∉ s.toList := by
    intro hmem
    have hblank := List.all_eq_true.mp hs _ hmem
    cases hblank
  simp only [String.toList_append, List.mem_append, not_or]
  exact ⟨⟨hnone a ha, h.first⟩, hnone b hb⟩

theorem parseArgument_eq_ok_iff {argument k v key : String} {label : Label}
    (h : IsCut argument k v) :
    parseArgument argument = .ok (key, label) ↔
      Text.trim k = key ∧ key ≠ "" ∧ Label.ofText (Text.trim v) = label := by
  rw [parseArgument_of_isCut h, ← and_assoc, ← Text.filled?_eq_some_iff]
  split
  · next hnone => simp [hnone]
  · next j hj => simp [hj]

theorem exists_isCut_of_parsed {argument : String} {p : String × Label}
    (h : parseArgument argument = .ok p) : ∃ k v, IsCut argument k v := by
  rw [parseArgument] at h
  split at h
  · cases h
  · next k v hsplit => exact ⟨k, v, splitAtEquals?_eq_some_iff.mp hsplit⟩

/-- The label that a value without blanks around it is given: a number if the value is a numeral,
and else the value as it stands. -/
structure Label.Reads (label : Label) (value : String) : Prop where
  number : ∀ x, label = .number x ↔ Decimal.ofText? value = some x
  numeric : (∃ x, label = .number x) ↔ Decimal.IsNumeral value
  text : ∀ t, label = .text t ↔ ¬ Decimal.IsNumeral value ∧ t = value

theorem Label.reads_ofText (value : String) : (Label.ofText value).Reads value := by
  have hnumeral := Decimal.isSome_ofText?_iff (s := value)
  rw [ofText]
  cases h : Decimal.ofText? value with
  | none =>
    rw [h] at hnumeral
    have hnot : ¬ Decimal.IsNumeral value := fun hn => absurd (hnumeral.mpr hn) Bool.false_ne_true
    exact ⟨by simp [h], by simp [hnot], by simp [hnot, eq_comm]⟩
  | some x =>
    have hyes : Decimal.IsNumeral value := hnumeral.mp (by rw [h]; rfl)
    exact ⟨by simp [h], by simp [hyes], by simp [hyes]⟩

def Query.without (q : Query) (key : String) : Query :=
  { q with conditions := q.conditions.filter fun d => d.key != key }

/-- A text that is required is one more condition, and the factors that meet it are those that have
the text. -/
theorem Query.eligible_require_text_iff {q : Query} {key t : String} {f : Factor} :
    (q.require key (.text t)).Eligible f ↔
      (q.without key).Eligible f ∧ f.classification.get? key = some (.text t) := by
  have hallows : Condition.allows ⟨key, .text t, .required⟩ f.classification = true ↔
      f.classification.get? key = some (.text t) := by
    have hmet : Condition.metBy ⟨key, .text t, .required⟩ f.classification = true ↔
        f.classification.get? key = some (.text t) := Condition.metBy_text_iff
    rw [← hmet, Condition.allows, Condition.metBy]
    cases f.classification.get? key <;> rfl
  rw [← fits_iff_eligible, ← fits_iff_eligible, ← hallows, ← Bool.and_eq_true]
  simp only [fits, require, add, without, List.all_append, List.all_cons, List.all_nil,
    Bool.and_true, Bool.and_assoc]

/-- A key that an argument is parsed to has no blanks at its ends and no equals sign in it. -/
theorem parsed_key {argument k v key : String} {label : Label} (hcut : IsCut argument k v)
    (h : parseArgument argument = .ok (key, label)) :
    Text.IsCore k key ∧ key ≠ "" ∧ '=' ∉ key.toList := by
  obtain ⟨hkey, hne, _⟩ := (parseArgument_eq_ok_iff hcut).mp h
  have hcore := Text.isCore_iff_trim_eq.mpr hkey
  obtain ⟨before, after, _, _, hk⟩ := hcore.around
  refine ⟨hcore, hne, fun hmem => hcut.first ?_⟩
  rw [hk, String.toList_append, String.toList_append]
  exact List.mem_append_left _ (List.mem_append_right _ hmem)

/-- A text label is the value that it comes from, so it is read as that text again. -/
theorem parsed_again {argument key t : String}
    (h : parseArgument argument = .ok (key, .text t)) :
    parseArgument (key ++ "=" ++ t) = .ok (key, .text t) := by
  obtain ⟨k, v, hcut⟩ := exists_isCut_of_parsed h
  obtain ⟨_, _, hfirst⟩ := parsed_key hcut h
  obtain ⟨hkey, hne, hlabel⟩ := (parseArgument_eq_ok_iff hcut).mp h
  have ht : t = Text.trim v := (((Label.reads_ofText (Text.trim v)).text t).mp hlabel).2
  refine (parseArgument_eq_ok_iff ⟨rfl, hfirst⟩).mpr ⟨?_, hne, ?_⟩
  · rw [← hkey, Text.trim_trim]
  · rw [ht, Text.trim_trim, hlabel, ht]

/-- An argument is parsed exactly if it has an equals sign with something before it. Then its key
and value are the two parts without the blanks around them, a value is a number exactly if it is a
numeral, blanks around the parts change nothing, and the normal form of a text label is parsed to
that label, which as a required one is met by the factors that have it. -/
theorem arguments_have_normal_form (argument : String) :
    ((∃ p, parseArgument argument = .ok p) ↔
      ∃ k v, IsCut argument k v ∧ Text.isBlank k = false) ∧
    (∀ k v, IsCut argument k v →
      (∀ key label, parseArgument argument = .ok (key, label) →
        (Text.IsCore k key ∧ key ≠ "" ∧ '=' ∉ key.toList) ∧
          ∃ value, Text.IsCore v value ∧ label.Reads value) ∧
      ∀ a b c d, Text.isBlank a = true → Text.isBlank b = true → Text.isBlank c = true →
        Text.isBlank d = true → ∀ p,
          parseArgument (a ++ k ++ b ++ "=" ++ (c ++ v ++ d)) = .ok p ↔
            parseArgument argument = .ok p) ∧
    ∀ key t, parseArgument argument = .ok (key, .text t) →
      parseArgument (key ++ "=" ++ t) = .ok (key, .text t) ∧
      ∀ (q : Query) (f : Factor), (q.require key (.text t)).Eligible f ↔
        (q.without key).Eligible f ∧ f.classification.get? key = some (.text t) := by
  refine ⟨?_, ?_, ?_⟩
  · constructor
    · rintro ⟨p, h⟩
      obtain ⟨k, v, hcut⟩ := exists_isCut_of_parsed h
      obtain ⟨hkey, hne, _⟩ := (parseArgument_eq_ok_iff hcut).mp h
      rw [← hkey, ne_eq, ← Text.isBlank_iff_trim_eq, Bool.not_eq_true] at hne
      exact ⟨k, v, hcut, hne⟩
    · rintro ⟨k, v, hcut, hblank⟩
      rw [← Bool.not_eq_true, Text.isBlank_iff_trim_eq] at hblank
      exact ⟨_, (parseArgument_eq_ok_iff hcut).mpr ⟨rfl, hblank, rfl⟩⟩
  · intro k v hcut
    refine ⟨?_, ?_⟩
    · intro key label h
      refine ⟨parsed_key hcut h, Text.trim v, Text.isCore_iff_trim_eq.mpr rfl, ?_⟩
      rw [← ((parseArgument_eq_ok_iff hcut).mp h).2.2]
      exact Label.reads_ofText _
    · rintro a b c d ha hb hc hd ⟨key, label⟩
      rw [parseArgument_eq_ok_iff (hcut.pad ha hb c d), parseArgument_eq_ok_iff hcut,
        Text.trim_append k ha hb, Text.trim_append v hc hd]
  · intro key t h
    exact ⟨parsed_again h, fun q f => Query.eligible_require_text_iff⟩

/-- The value of an argument may hold an equals sign itself. -/
theorem operator_argument_has_normal_form :
    IsCut "operator=SBB = BLS" "operator" "SBB = BLS" ∧
      Text.IsCore "SBB = BLS" "SBB = BLS" ∧ ¬ Decimal.IsNumeral "SBB = BLS" ∧
      parseArgument "operator=SBB = BLS" = .ok ("operator", .text "SBB = BLS") ∧
      parseArgument " operator\t=  SBB = BLS\n" = .ok ("operator", .text "SBB = BLS") := by
  obtain ⟨_, hparts, hagain⟩ := arguments_have_normal_form "operator=SBB = BLS"
  have hcut : IsCut "operator=SBB = BLS" "operator" "SBB = BLS" := ⟨by rfl, by decide⟩
  have hparsed : parseArgument "operator=SBB = BLS" = .ok ("operator", .text "SBB = BLS") := by rfl
  obtain ⟨hform, hpadded⟩ := hparts _ _ hcut
  obtain ⟨_, value, hcore, hreads⟩ := hform _ _ hparsed
  obtain ⟨hnumeral, rfl⟩ := (hreads.text _).mp rfl
  have hpad := hpadded " " "\t" "  " "\n" (by decide) (by decide) (by decide) (by decide)
  exact ⟨hcut, hcore, hnumeral, (hagain _ _ hparsed).1, (hpad _).mpr hparsed⟩

end CarbonLedger
