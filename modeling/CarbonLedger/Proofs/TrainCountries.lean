import CarbonLedger.Proofs.EvaluationCases
import CarbonLedger.Proofs.LetterCase

namespace CarbonLedger

namespace Text

theorem trimChars_sublist (cs : List Char) : (trimChars cs).Sublist cs := by
  have hend (l : List Char) : (dropEndWhile isBlankChar l).Sublist l := by
    have hdropped := (List.dropWhile_sublist (p := isBlankChar) (l := l.reverse)).reverse
    rwa [List.reverse_reverse] at hdropped
  exact (hend _).trans (List.dropWhile_sublist _)

/-- Whether a text has blanks around it does not depend on the case of its letters. -/
theorem trim_upper_eq_iff {s : String} : trim (upper s) = upper s ↔ trim s = s := by
  rw [trim_upper]
  constructor
  · intro h
    have hlength : (trim s).toList.length = s.toList.length := by
      have hchars := congrArg (fun t : String => t.toList.length) h
      simpa only [upper, String.toList_map, List.length_map] using hchars
    rw [toList_trim] at hlength
    apply String.toList_inj.mp
    rw [toList_trim]
    exact (trimChars_sublist s.toList).eq_of_length hlength
  · intro h
    rw [h]

end Text

namespace Country

/-- The country that a code names: the code in upper case, without blanks around it. A code that is
missing or blank names none. -/
def named? (code : Option String) : Option String := (code.bind Text.filled?).map Text.upper

/-- The table of train trips, by the countries of their origin and destination. -/
inductive Charged (home : String) : Option String → Option String → String → Prop
  | domestic : Charged home (some home) (some home) home
  | destination (origin : Option String) {country : String} (h : country ≠ home) :
    Charged home origin (some country) country
  | origin {destination : Option String} {country : String} (h : country ≠ home)
      (hdestination : ∀ c ∈ destination, c = home) :
    Charged home (some country) destination country
  | nowhere {origin destination : Option String} (horigin : ∀ c ∈ origin, c = home)
      (hdestination : ∀ c ∈ destination, c = home) (h : origin = none ∨ destination = none) :
    Charged home origin destination restOfWorld

section Table
variable {home country : String} {origin destination : Option String}

def foreign? (home : String) (country : Option String) : Option String :=
  country.filter fun c => c != home

theorem foreign?_eq_some_iff {end? : Option String} :
    foreign? home end? = some country ↔ end? = some country ∧ country ≠ home := by
  rw [foreign?, Option.filter_eq_some_iff, bne_iff_ne]

theorem foreign?_eq_none_iff {end? : Option String} :
    foreign? home end? = none ↔ ∀ c ∈ end?, c = home := by
  rw [foreign?, Option.filter_eq_none_iff]
  simp

/-- The table has one row for every trip. -/
theorem charged_iff : Charged home origin destination country ↔
    (if origin = some home ∧ destination = some home then home
      else ((foreign? home destination).or (foreign? home origin)).getD restOfWorld) = country := by
  constructor
  · intro h
    cases h with
    | domestic => exact if_pos ⟨rfl, rfl⟩
    | destination _ h =>
      have hforeign : foreign? home (some country) = some country :=
        foreign?_eq_some_iff.mpr ⟨rfl, h⟩
      rw [if_neg (fun hboth => h (Option.some.inj hboth.2)), hforeign]
      rfl
    | origin h hdestination =>
      have hforeign : foreign? home (some country) = some country :=
        foreign?_eq_some_iff.mpr ⟨rfl, h⟩
      rw [if_neg (fun hboth => h (Option.some.inj hboth.1)), hforeign,
        foreign?_eq_none_iff.mpr hdestination]
      rfl
    | nowhere horigin hdestination h =>
      rw [foreign?_eq_none_iff.mpr horigin, foreign?_eq_none_iff.mpr hdestination, if_neg]
      · rfl
      · rintro ⟨rfl, rfl⟩
        simp at h
  · rintro rfl
    split
    · next h =>
      obtain ⟨rfl, rfl⟩ := h
      exact .domestic
    · next hboth =>
      cases hdestination : foreign? home destination with
      | some c =>
        obtain ⟨rfl, hc⟩ := foreign?_eq_some_iff.mp hdestination
        exact .destination origin hc
      | none =>
        rw [foreign?_eq_none_iff] at hdestination
        cases horigin : foreign? home origin with
        | some c =>
          obtain ⟨rfl, hc⟩ := foreign?_eq_some_iff.mp horigin
          exact .origin hc hdestination
        | none =>
          rw [foreign?_eq_none_iff] at horigin
          refine .nowhere horigin hdestination ?_
          cases origin with
          | none => exact Or.inl rfl
          | some o =>
            cases destination with
            | none => exact Or.inr rfl
            | some d =>
              rw [horigin o rfl, hdestination d rfl] at hboth
              exact absurd ⟨rfl, rfl⟩ hboth

theorem any_sameLetters (domestic : String) (o : Option String) :
    o.any (fun code => Text.sameLetters code domestic) = true ↔
      o.map Text.upper = some (Text.upper domestic) := by
  cases o <;> simp [Text.sameLetters_iff_upper]

theorem map_upper_filter (domestic : String) (o : Option String) :
    (o.filter fun code => !Text.sameLetters code domestic).map Text.upper =
      foreign? (Text.upper domestic) (o.map Text.upper) := by
  cases o with
  | none => rfl
  | some code =>
    have hsame : (!Text.sameLetters code domestic) =
        (Text.upper code != Text.upper domestic) := by
      rw [Bool.eq_iff_iff, bne_iff_ne, ne_eq, ← Text.sameLetters_iff_upper]
      simp
    rw [Option.map_some, foreign?, Option.filter_some, Option.filter_some, hsame]
    split <;> rfl

/-- Ends are compared with the domestic code as it stands. -/
theorem ofTrainTrip_eq (domestic : String) (origin destination : Option String) :
    ofTrainTrip domestic origin destination =
      if named? origin = some (Text.upper domestic) ∧
          named? destination = some (Text.upper domestic) then Text.upper domestic
      else ((foreign? (Text.upper domestic) (named? destination)).or
        (foreign? (Text.upper domestic) (named? origin))).getD restOfWorld := by
  simp only [ofTrainTrip, Bool.and_eq_true, any_sameLetters, Option.map_or, map_upper_filter]
  rfl

theorem trim_of_named? {code : Option String} (h : named? code = some country) :
    Text.trim country = country := by
  obtain ⟨text, htext, rfl⟩ := Option.map_eq_some_iff.mp h
  obtain ⟨s, _, hs⟩ := Option.bind_eq_some_iff.mp htext
  obtain ⟨rfl, _⟩ := Text.filled?_eq_some_iff.mp hs
  rw [Text.trim_upper, Text.trim_trim]

/-- No end of a trip is in a country that is written with blanks around it. -/
theorem foreign?_upper_of_blanks {domestic : String} (h : Text.trim domestic ≠ domestic)
    (code : Option String) : foreign? (Text.upper domestic) (named? code) = named? code := by
  cases hcode : named? code with
  | none => rfl
  | some country =>
    refine foreign?_eq_some_iff.mpr ⟨rfl, ?_⟩
    rintro rfl
    exact h (Text.trim_upper_eq_iff.mp (trim_of_named? hcode))

theorem upper_ne_restOfWorld (s : String) : Text.upper s ≠ restOfWorld := by
  intro h
  have hupper : Text.upper restOfWorld = restOfWorld := by rw [← h, Text.upper_upper]
  exact absurd hupper (by decide +kernel)

/-- The home country is charged with trips within it and with no others. -/
theorem charged_home_iff (h : home ≠ restOfWorld) : Charged home origin destination home ↔
    origin = some home ∧ destination = some home := by
  constructor
  · intro hcharged
    cases hcharged with
    | domestic => exact ⟨rfl, rfl⟩
    | destination _ hne => exact absurd rfl hne
    | origin hne => exact absurd rfl hne
    | nowhere => exact absurd rfl h
  · rintro ⟨rfl, rfl⟩
    exact .domestic

end Table

end Country

/-- The blanks around a location's code are cut once or twice to the same effect. -/
theorem Country.ofTrainTrip_country? (domestic : String) (origin destination : Location) :
    ofTrainTrip domestic origin.country? destination.country? =
      ofTrainTrip domestic origin.countryCode destination.countryCode := by
  simp only [ofTrainTrip, Location.country?, Text.bind_filled?_filled?]

namespace Basis
variable {b : Basis} {t : Trip} {origin destination : Location}

/-- The snapshot of a train tells the country whose factor is used. -/
theorem countryCode_of_train {o : Outcome} (h : b.train t origin destination = .ok o) :
    ∃ c s, o.calculations = [c] ∧ c.snapshot = .train s ∧
      s.countryCode = some (Country.ofTrainTrip b.settings.domesticCountry origin.countryCode
        destination.countryCode) := by
  obtain ⟨c, hc, h⟩ := bind_eq_ok.mp h
  obtain ⟨km, _, hc⟩ := bind_eq_ok.mp (mapError_eq_ok.mp hc)
  cases h
  cases hc
  exact ⟨_, _, rfl, rfl, congrArg some (Country.ofTrainTrip_country? _ origin destination)⟩

/-- The emission of a train trip tells the country that its ends lead to. -/
theorem countryCode_of_evaluate (horigin : b.directory.find? t.origin = some origin)
    (hdestination : b.directory.find? t.destination = some destination)
    (hmode : TransportMode.ofText t.mode = .ok .train) {subject : Int64} {computedAt : Instant}
    {e : Evaluation} (h : b.evaluate ⟨subject, .travel t⟩ computedAt = .ok e) :
    ∃ m s, e.emissions = [m] ∧ m.snapshot = .train s ∧
      s.countryCode = some (Country.ofTrainTrip b.settings.domesticCountry origin.countryCode
        destination.countryCode) := by
  obtain ⟨o, ho, h⟩ := bind_eq_ok.mp h
  have htrain : b.travel t = b.train t origin destination :=
    travel_of_found horigin hdestination .train hmode
  obtain ⟨c, s, hc, hs, hcountry⟩ := countryCode_of_train (htrain.symm.trans ho)
  cases h
  refine ⟨c.toEmission subject computedAt, s, ?_, hs, hcountry⟩
  rw [hc]
  rfl

end Basis

/-- Where the domestic code has no blanks around it, the country of a train trip is read off the
table, and it is the home country for trips within it alone. Where the domestic code has blanks
around it no end is domestic: the destination decides, or else the origin. Trains are looked up and
recorded for the country that comes out. -/
theorem train_trips_by_country (domestic : String) (origin destination : Option String) :
    let home := Text.upper (Text.trim domestic)
    let answer := Country.ofTrainTrip domestic origin destination
    (Text.trim domestic = domestic →
      (∀ country,
        Country.Charged home (Country.named? origin) (Country.named? destination) country ↔
          answer = country) ∧
      (answer = home ↔
        Country.named? origin = some home ∧ Country.named? destination = some home)) ∧
    (Text.trim domestic ≠ domestic →
      answer = ((Country.named? destination).or (Country.named? origin)).getD
        Country.restOfWorld) ∧
    ∀ (b : Basis) (t : Trip) (l m : Location) (subject : Int64) (computedAt : Instant)
      (e : Evaluation), b.settings.domesticCountry = domestic → l.countryCode = origin →
      m.countryCode = destination → b.directory.find? t.origin = some l →
      b.directory.find? t.destination = some m → TransportMode.ofText t.mode = .ok .train →
      b.evaluate ⟨subject, .travel t⟩ computedAt = .ok e →
      ∃ n s, e.emissions = [n] ∧ n.snapshot = .train s ∧ s.countryCode = some answer := by
  intro home answer
  refine ⟨?_, ?_, ?_⟩
  · intro htrim
    have hhome : home = Text.upper domestic := congrArg Text.upper htrim
    have htable (country : String) : Country.Charged home (Country.named? origin)
        (Country.named? destination) country ↔ answer = country := by
      rw [hhome, Country.charged_iff, ← Country.ofTrainTrip_eq]
    refine ⟨htable, ?_⟩
    rw [← htable home]
    exact Country.charged_home_iff (Country.upper_ne_restOfWorld _)
  · intro htrim
    have hnot : ¬ (Country.named? origin = some (Text.upper domestic) ∧
        Country.named? destination = some (Text.upper domestic)) := by
      rintro ⟨h, _⟩
      exact htrim (Text.trim_upper_eq_iff.mp (Country.trim_of_named? h))
    rw [show answer = _ from Country.ofTrainTrip_eq domestic origin destination, if_neg hnot,
      Country.foreign?_upper_of_blanks htrim, Country.foreign?_upper_of_blanks htrim]
  · rintro b t l m subject computedAt e rfl rfl rfl horigin hdestination hmode h
    exact Basis.countryCode_of_evaluate horigin hdestination hmode h

/-- A trip from Germany to Switzerland is charged to Germany where Switzerland is home, however the
ends are spelled, but not where blanks stand around the home country. -/
theorem german_end_decides :
    Text.trim "CH" = "CH" ∧
      Country.Charged "CH" (Country.named? (some " de")) (Country.named? (some "ch ")) "DE" ∧
      Country.ofTrainTrip "CH" (some " de") (some "ch ") = "DE" ∧
      Text.trim "CH " ≠ "CH " ∧ Country.ofTrainTrip "CH " (some " de") (some "ch ") = "CH" := by
  have htrim : Text.trim "CH" = "CH" := by decide +kernel
  have hhome : Text.upper (Text.trim "CH") = "CH" := by decide +kernel
  have htable := ((train_trips_by_country "CH" (some " de") (some "ch ")).1 htrim).1 "DE"
  rw [hhome] at htable
  have hcharged : Country.Charged "CH" (Country.named? (some " de")) (Country.named? (some "ch "))
      "DE" := by
    have horigin : Country.named? (some " de") = some "DE" := by decide +kernel
    have hdestination : Country.named? (some "ch ") = some "CH" := by decide +kernel
    rw [horigin, hdestination]
    refine .origin (by decide) ?_
    rintro c ⟨⟩
    rfl
  have hpadded : Text.trim "CH " ≠ "CH " := by decide +kernel
  have hanswer := (train_trips_by_country "CH " (some " de") (some "ch ")).2.1 hpadded
  exact ⟨htrim, hcharged, htable.mp hcharged, hpadded, hanswer.trans (by decide +kernel)⟩

/-- With blanks around the domestic code, which settings may have, the same trip is charged to
Switzerland: the domestic end hides the foreign one. -/
theorem padded_home_hides_german_end :
    Settings.validate { Settings.default with domesticCountry := " ch " } = .ok () ∧
      Text.upper (Text.trim " ch ") = "CH" ∧
      Country.Charged "CH" (Country.named? (some "DE")) (Country.named? (some "CH")) "DE" ∧
      Country.ofTrainTrip " ch " (some "DE") (some "CH") = "CH" := by
  refine ⟨by rfl, by decide +kernel, ?_, by decide +kernel⟩
  have horigin : Country.named? (some "DE") = some "DE" := by decide +kernel
  have hdestination : Country.named? (some "CH") = some "CH" := by decide +kernel
  rw [horigin, hdestination]
  refine .origin (by decide) ?_
  rintro c ⟨⟩
  rfl

end CarbonLedger
