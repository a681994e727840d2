import CarbonLedger.InputFiles
import CarbonLedger.Proofs.MalformedTrips
import CarbonLedger.Proofs.Numerals
import CarbonLedger.Proofs.WrittenRecords

namespace CarbonLedger
namespace Settings

def IsPositive (x : Float) : Prop := x.isFinite = true ∧ 0.0 < x

def IsNotNegative (x : Float) : Prop := x.isFinite = true ∧ 0.0 ≤ x

instance (x : Float) : Decidable (IsPositive x) := inferInstanceAs (Decidable (_ ∧ _))

instance (x : Float) : Decidable (IsNotNegative x) := inferInstanceAs (Decidable (_ ∧ _))

structure InRange (s : Settings) : Prop where
  weeks : IsPositive s.weeksPerYear
  hours : IsPositive s.hoursPerWeek
  intensity : IsNotNegative s.defaultKgPerKwh
  country : Text.isBlank s.domesticCountry = false

inductive Complaint (s : Settings) : SettingsError → Prop
  | weeks (h : ¬ IsPositive s.weeksPerYear) :
    Complaint s (.notPositive "weeks_per_year" s.weeksPerYear)
  | hours (before : IsPositive s.weeksPerYear) (h : ¬ IsPositive s.hoursPerWeek) :
    Complaint s (.notPositive "hours_per_week" s.hoursPerWeek)
  | intensity (before : IsPositive s.weeksPerYear ∧ IsPositive s.hoursPerWeek)
    (h : ¬ IsNotNegative s.defaultKgPerKwh) : Complaint s (.negativeDefault s.defaultKgPerKwh)
  | country (before : IsPositive s.weeksPerYear ∧ IsPositive s.hoursPerWeek ∧
      IsNotNegative s.defaultKgPerKwh) (h : ¬ Text.isBlank s.domesticCountry = false) :
    Complaint s .blankCountry

section Checks

theorem isNaN_zero : Float.isNaN 0.0 = false := by decide +kernel

theorem not_le_iff_lt {x y : Float} (hx : x.isNaN = false) (hy : y.isNaN = false) :
    ¬ x ≤ y ↔ y < x := by
  rw [not_le_iff, hx, hy]
  simp

/-- A check that asks for a finite number and then for a bound. -/
theorem refused_iff {x : Float} {bad good : Prop} [Decidable bad]
    (h : x.isFinite = true → (bad ↔ ¬ good)) :
    (!x.isFinite || decide bad) = true ↔ ¬ (x.isFinite = true ∧ good) := by
  cases hx : x.isFinite with
  | false => simp
  | true => simp [h hx]

theorem positive_eq (field : String) (x : Float) :
    positive field x = if IsPositive x then .ok () else .error (.notPositive field x) := by
  have hrefused : (!x.isFinite || decide (x ≤ 0.0)) = true ↔ ¬ IsPositive x :=
    refused_iff fun hx => (not_iff_comm.mp (not_le_iff_lt (isNaN_of_isFinite hx) isNaN_zero)).symm
  rw [positive, ite_cond_congr (propext hrefused), ite_not]

theorem notNegative_eq (x : Float) :
    notNegative x = if IsNotNegative x then .ok () else .error (.negativeDefault x) := by
  have hrefused : (!x.isFinite || decide (x < 0.0)) = true ↔ ¬ IsNotNegative x :=
    refused_iff fun hx => (not_le_iff_lt isNaN_zero (isNaN_of_isFinite hx)).symm
  rw [notNegative, ite_cond_congr (propext hrefused), ite_not]

variable {s : Settings} {e : SettingsError}

theorem inRange_or_complaint (s : Settings) : s.InRange ∨ ∃ e, s.Complaint e := by
  by_cases hweeks : IsPositive s.weeksPerYear
  · by_cases hhours : IsPositive s.hoursPerWeek
    · by_cases hintensity : IsNotNegative s.defaultKgPerKwh
      · by_cases hcountry : Text.isBlank s.domesticCountry = false
        · exact Or.inl ⟨hweeks, hhours, hintensity, hcountry⟩
        · exact Or.inr ⟨_, .country ⟨hweeks, hhours, hintensity⟩ hcountry⟩
      · exact Or.inr ⟨_, .intensity ⟨hweeks, hhours⟩ hintensity⟩
    · exact Or.inr ⟨_, .hours hweeks hhours⟩
  · exact Or.inr ⟨_, .weeks hweeks⟩

theorem validate_of_inRange (h : s.InRange) : s.validate = .ok () := by
  rw [validate, positive_eq, positive_eq, notNegative_eq, notBlank, if_pos h.weeks, if_pos h.hours,
    if_pos h.intensity, h.country]
  rfl

theorem validate_of_complaint (h : s.Complaint e) : s.validate = .error e := by
  rw [validate, positive_eq, positive_eq, notNegative_eq, notBlank]
  cases h with
  | weeks h =>
    rw [if_neg h]
    rfl
  | hours before h =>
    rw [if_pos before, if_neg h]
    rfl
  | intensity before h =>
    rw [if_pos before.1, if_pos before.2, if_neg h]
    rfl
  | country before h =>
    rw [if_pos before.1, if_pos before.2.1, if_pos before.2.2, eq_true_of_ne_false h]
    rfl

/-- Settings are valid when all their numbers are in range. -/
theorem validate_eq_ok_iff : s.validate = .ok () ↔ s.InRange := by
  refine ⟨?_, validate_of_inRange⟩
  intro h
  rcases inRange_or_complaint s with hrange | ⟨e, he⟩
  · exact hrange
  · rw [validate_of_complaint he] at h
    cases h

/-- Validation complains of the first number that is out of range. -/
theorem validate_eq_error_iff : s.validate = .error e ↔ s.Complaint e := by
  refine ⟨?_, validate_of_complaint⟩
  intro h
  rcases inRange_or_complaint s with hrange | ⟨d, hd⟩
  · rw [validate_of_inRange hrange] at h
    cases h
  · rw [validate_of_complaint hd] at h
    cases h
    exact hd

end Checks

def IsUnreadable (env : Environment) (name text : String) : Prop :=
  env name = some text ∧ ¬ Decimal.IsNumeral (Text.trim text)

def IsReadable (env : Environment) (name : String) : Prop := ∀ text, ¬ IsUnreadable env name text

structure Readable (env : Environment) : Prop where
  weeks : IsReadable env weeksVariable
  hours : IsReadable env hoursVariable
  intensity : IsReadable env intensityVariable

/-- The first variable that is no number, and its text. -/
inductive FirstUnreadable (env : Environment) : String → String → Prop
  | weeks {text : String} (h : IsUnreadable env weeksVariable text) :
    FirstUnreadable env weeksVariable text
  | hours {text : String} (before : IsReadable env weeksVariable)
    (h : IsUnreadable env hoursVariable text) : FirstUnreadable env hoursVariable text
  | intensity {text : String} (before : IsReadable env weeksVariable ∧ IsReadable env hoursVariable)
    (h : IsUnreadable env intensityVariable text) : FirstUnreadable env intensityVariable text

def numberOr (env : Environment) (name : String) (x : Float) : Float :=
  ((env name).bind fun text => Decimal.ofText? (Text.trim text)).getD x

def overlaid (s : Settings) (env : Environment) : Settings :=
  { s with
    weeksPerYear := numberOr env weeksVariable s.weeksPerYear
    hoursPerWeek := numberOr env hoursVariable s.hoursPerWeek
    defaultKgPerKwh := numberOr env intensityVariable s.defaultKgPerKwh }

section Overriding
variable {env : Environment} {name text : String} {x : Float} {e : SettingsError} {s r : Settings}

theorem override_of_isUnreadable (h : IsUnreadable env name text) :
    override env name x = .error (.notANumber name text) := by
  have hnone : Decimal.ofText? (Text.trim text) = none := by
    have hnot := mt Decimal.isSome_ofText?_iff.mp h.2
    simpa using hnot
  rw [override, h.1]
  simp only [hnone]

theorem IsReadable.exists_number (h : IsReadable env name) (hset : env name = some text) :
    ∃ x, Decimal.ofText? (Text.trim text) = some x := by
  rw [← Option.isSome_iff_exists, Decimal.isSome_ofText?_iff]
  by_contra hnot
  exact h text ⟨hset, hnot⟩

theorem override_of_isReadable (h : IsReadable env name) :
    override env name x = .ok (numberOr env name x) := by
  rw [override, numberOr]
  cases hset : env name with
  | none => rfl
  | some text =>
    obtain ⟨y, hy⟩ := h.exists_number hset
    simp [hy]

theorem readable_or_firstUnreadable (env : Environment) :
    Readable env ∨ ∃ name text, FirstUnreadable env name text := by
  by_cases hweeks : IsReadable env weeksVariable
  · by_cases hhours : IsReadable env hoursVariable
    · by_cases hintensity : IsReadable env intensityVariable
      · exact Or.inl ⟨hweeks, hhours, hintensity⟩
      · obtain ⟨text, h⟩ := not_forall_not.mp hintensity
        exact Or.inr ⟨_, text, .intensity ⟨hweeks, hhours⟩ h⟩
    · obtain ⟨text, h⟩ := not_forall_not.mp hhours
      exact Or.inr ⟨_, text, .hours hweeks h⟩
  · obtain ⟨text, h⟩ := not_forall_not.mp hweeks
    exact Or.inr ⟨_, text, .weeks h⟩

theorem FirstUnreadable.not_readable (h : FirstUnreadable env name text) : ¬ Readable env := by
  intro hreadable
  cases h with
  | weeks h => exact hreadable.weeks _ h
  | hours _ h => exact hreadable.hours _ h
  | intensity _ h => exact hreadable.intensity _ h

/-- A variable that is no number is told before any constant is looked at. -/
theorem withEnvironment_of_firstUnreadable (h : FirstUnreadable env name text) :
    s.withEnvironment env = .error (.notANumber name text) := by
  rw [withEnvironment]
  cases h with
  | weeks h =>
    rw [override_of_isUnreadable h]
    rfl
  | hours before h =>
    rw [override_of_isReadable before, override_of_isUnreadable h]
    rfl
  | intensity before h =>
    rw [override_of_isReadable before.1, override_of_isReadable before.2,
      override_of_isUnreadable h]
    rfl

theorem withEnvironment_of_readable (h : Readable env) :
    s.withEnvironment env = (do (s.overlaid env).validate; return s.overlaid env) := by
  rw [withEnvironment, override_of_isReadable h.weeks, override_of_isReadable h.hours,
    override_of_isReadable h.intensity]
  rfl

/-- The variables are laid over the settings if they can be read and the result is in range. -/
theorem withEnvironment_eq_ok_iff :
    s.withEnvironment env = .ok r ↔
      Readable env ∧ (s.overlaid env).InRange ∧ s.overlaid env = r := by
  rcases readable_or_firstUnreadable env with h | ⟨name, text, h⟩
  · rw [withEnvironment_of_readable h, bind_eq_ok, ← validate_eq_ok_iff]
    constructor
    · rintro ⟨_, hvalid, hr⟩
      exact ⟨h, hvalid, Except.ok.inj hr⟩
    · rintro ⟨_, hvalid, rfl⟩
      exact ⟨(), hvalid, rfl⟩
  · rw [withEnvironment_of_firstUnreadable h]
    exact iff_of_false nofun fun hall => h.not_readable hall.1

/-- A variable that cannot be read is told before a number that is out of range. -/
theorem withEnvironment_eq_error_iff :
    s.withEnvironment env = .error e ↔
      (∃ name text, FirstUnreadable env name text ∧ e = .notANumber name text) ∨
        Readable env ∧ (s.overlaid env).Complaint e := by
  rcases readable_or_firstUnreadable env with h | ⟨name, text, h⟩
  · rw [withEnvironment_of_readable h, bind_eq_error, ← validate_eq_error_iff]
    constructor
    · rintro (hinvalid | ⟨_, _, hnever⟩)
      · exact Or.inr ⟨h, hinvalid⟩
      · cases hnever
    · rintro (⟨name, text, hfirst, _⟩ | ⟨_, hinvalid⟩)
      · exact absurd h hfirst.not_readable
      · exact Or.inl hinvalid
  · constructor
    · intro he
      rw [withEnvironment_of_firstUnreadable h] at he
      exact Or.inl ⟨name, text, h, (Except.error.inj he).symm⟩
    · rintro (⟨_, _, hfirst, rfl⟩ | ⟨hreadable, _⟩)
      · exact withEnvironment_of_firstUnreadable hfirst
      · exact absurd hreadable h.not_readable

end Overriding

/-- What a document gives under a key, or the default where it gives nothing. -/
inductive Given {α : Type} (doc : Value) (key : String) (read : Reader α) (default : α) : α → Prop
  | here {v : Value} {a : α} (hv : doc.get? key = some v) (h : read v = .ok a) :
    Given doc key read default a
  | absent (h : doc.get? key = none) : Given doc key read default default

inductive Layered (env : Environment) (name : String) (doc : Value) (key : String)
    (default : Float) : Float → Prop
  | environment {text : String} {x : Float} (hset : env name = some text)
    (h : Decimal.ofText? (Text.trim text) = some x) : Layered env name doc key default x
  | below {x : Float} (hunset : env name = none) (h : Given doc key Reader.float default x) :
    Layered env name doc key default x

structure ComesFrom (s : Settings) (env : Environment) (doc : Value) : Prop where
  weeks : Layered env weeksVariable doc "weeks_per_year" default.weeksPerYear s.weeksPerYear
  hours : Layered env hoursVariable doc "hours_per_week" default.hoursPerWeek s.hoursPerWeek
  intensity : Layered env intensityVariable doc "default_kg_co2eq_per_kwh"
    default.defaultKgPerKwh s.defaultKgPerKwh
  country : Given doc "domestic_country_code" Reader.text default.domesticCountry s.domesticCountry
  ties : Given doc "ambiguity_policy" (Reader.case .file) default.ties s.ties

theorem given_of_sound {α : Type} {entries : List (String × Value)} {place : Nat} {key : String}
    {read : Reader α} {a b : α}
    (h : (Fields.named entries).withDefault place key read a = .sound b) :
    Given (.table entries) key read a b := by
  rw [Fields.withDefault_named] at h
  cases hv : findEntry key entries with
  | none =>
    rw [hv, Checked.ofEntry_none] at h
    cases h
    exact .absent hv
  | some v =>
    rw [hv, Checked.ofEntry_some] at h
    cases hread : read v with
    | ok c =>
      rw [hread] at h
      cases h
      exact .here hv hread
    | error cause =>
      rw [hread] at h
      cases h

/-- The settings of a table are what it gives, and the defaults for the rest. -/
theorem comesFrom_of_read {entries : List (String × Value)} {s : Settings}
    (h : read .file (.table entries) = .ok s) : s.ComesFrom (fun _ => none) (.table entries) := by
  rw [read, Reader.record_table, Checked.result_eq_ok_iff] at h
  obtain ⟨_, hfour, ties, hties, rfl⟩ := Checked.seq_eq_sound_iff.mp h
  obtain ⟨_, hthree, country, hcountry, rfl⟩ := Checked.seq_eq_sound_iff.mp hfour
  obtain ⟨_, htwo, intensity, hintensity, rfl⟩ := Checked.seq_eq_sound_iff.mp hthree
  obtain ⟨_, hone, hours, hhours, rfl⟩ := Checked.seq_eq_sound_iff.mp htwo
  obtain ⟨weeks, hweeks, rfl⟩ := Checked.map_eq_sound_iff.mp hone
  exact ⟨.below rfl (given_of_sound hweeks), .below rfl (given_of_sound hhours),
    .below rfl (given_of_sound hintensity), given_of_sound hcountry, given_of_sound hties⟩

theorem layered_numberOr {env : Environment} {name key : String} {doc : Value} {default x : Float}
    (henv : IsReadable env name) (h : Layered (fun _ => none) name doc key default x) :
    Layered env name doc key default (numberOr env name x) := by
  cases h with
  | environment hset _ => cases hset
  | below _ hgiven =>
    cases hset : env name with
    | none =>
      rw [numberOr, hset]
      exact .below hset hgiven
    | some text =>
      obtain ⟨y, hy⟩ := henv.exists_number hset
      rw [numberOr, hset, Option.bind_some, hy]
      exact .environment hset hy

/-- The numbers of the environment lie over what a document gives. -/
theorem ComesFrom.overlaid {s : Settings} {env : Environment} {doc : Value}
    (h : s.ComesFrom (fun _ => none) doc) (henv : Readable env) :
    (s.overlaid env).ComesFrom env doc :=
  ⟨layered_numberOr henv.weeks h.weeks, layered_numberOr henv.hours h.hours,
    layered_numberOr henv.intensity h.intensity, h.country, h.ties⟩

theorem exists_table_of_read? {content : String} {doc : Value} (h : Toml.read? content = some doc) :
    ∃ entries, doc = .table entries := by
  simp only [Toml.read?, Option.bind_eq_bind, Option.bind_eq_some_iff] at h
  obtain ⟨_, _, g, _, hdoc⟩ := h
  exact ⟨_, (Option.some.inj hdoc).symm⟩

theorem comesFrom_of_ofToml {content : String} {s : Settings} (h : ofToml content = .ok s) :
    ∃ doc, Toml.read? content = some doc ∧ s.ComesFrom (fun _ => none) doc := by
  obtain ⟨_, hread, h⟩ := bind_eq_ok.mp h
  obtain ⟨_, _, hs⟩ := bind_eq_ok.mp h
  cases hs
  have hfile := mapError_eq_ok.mp hread
  rw [FileError.ofToml] at hfile
  split at hfile
  · cases hfile
  · next doc hdoc =>
    obtain ⟨entries, rfl⟩ := exists_table_of_read? hdoc
    exact ⟨_, hdoc, comesFrom_of_read (mapError_eq_ok.mp hfile)⟩

theorem ofToml_eq_ok {content : String} {s : Settings}
    (hread : FileError.ofToml (read .file) content = .ok s) (h : s.InRange) :
    ofToml content = .ok s :=
  bind_eq_ok.mpr ⟨s, mapError_eq_ok.mpr hread,
    bind_eq_ok.mpr ⟨(), mapError_eq_ok.mpr (validate_of_inRange h), rfl⟩⟩

theorem load_of_ofToml {content : String} {file : Settings} (h : ofToml content = .ok file)
    (env : Environment) :
    load (some content) env = (file.withEnvironment env).mapError .settings := by
  rw [load, h]
  rfl

/-- Without a file the settings are loaded as from an empty one. -/
theorem load_none (env : Environment) : load none env = load (some "") env := by
  have hrange : InRange default := ⟨by decide +kernel, by decide +kernel, by decide +kernel, by rfl⟩
  have hread : FileError.ofToml (read .file) "" = .ok default := by rfl
  rw [load_of_ofToml (ofToml_eq_ok hread hrange)]
  rfl

/-- Settings that are loaded pass the check and are in range, and every constant comes from the
topmost of the layers environment, file and defaults that gives it; the country and what to do with
ties are not in the environment. Where the file can be used, loading fails exactly if a variable is
no number, the first such one being told before any range is looked at, or if a constant of the
layers together is out of range. -/
theorem settings_come_in_layers (content : String) (env : Environment) :
    (∀ s, load (some content) env = .ok s → s.validate = .ok () ∧ s.InRange ∧
      ∃ doc, Toml.read? content = some doc ∧ s.ComesFrom env doc) ∧
    (∀ file, ofToml content = .ok file → ∀ e, load (some content) env = .error e ↔
      (∃ name text, FirstUnreadable env name text ∧ e = .settings (.notANumber name text)) ∨
        Readable env ∧ ∃ cause, (file.overlaid env).Complaint cause ∧ e = .settings cause) ∧
    load none env = load (some "") env := by
  refine ⟨?_, ?_, load_none env⟩
  · intro s h
    obtain ⟨file, hfile, h⟩ := bind_eq_ok.mp h
    obtain ⟨doc, hdoc, hcomes⟩ := comesFrom_of_ofToml hfile
    obtain ⟨henv, hrange, rfl⟩ := withEnvironment_eq_ok_iff.mp (mapError_eq_ok.mp h)
    exact ⟨validate_of_inRange hrange, hrange, doc, hdoc, hcomes.overlaid henv⟩
  · intro file hfile e
    rw [load_of_ofToml hfile, mapError_eq_error]
    constructor
    · rintro ⟨cause, hcause, rfl⟩
      rcases withEnvironment_eq_error_iff.mp hcause with ⟨name, text, hfirst, rfl⟩ | ⟨henv, hbad⟩
      · exact Or.inl ⟨name, text, hfirst, rfl⟩
      · exact Or.inr ⟨henv, cause, hbad, rfl⟩
    · rintro (⟨name, text, hfirst, rfl⟩ | ⟨henv, cause, hbad, rfl⟩)
      · exact ⟨_, withEnvironment_of_firstUnreadable hfirst, rfl⟩
      · exact ⟨cause, withEnvironment_eq_error_iff.mpr (Or.inr ⟨henv, hbad⟩), rfl⟩

theorem exists_of_any_toOption {ε α : Type} {x : Except ε α} {p : α → Bool}
    (h : x.toOption.any p = true) : ∃ a, x = .ok a ∧ p a = true := by
  cases x with
  | error e => cases h
  | ok a => exact ⟨a, rfl, h⟩

/-- A variable for the weeks lies over the file, and one that is no number is told. -/
theorem fifty_weeks_lie_over_file :
    let content := "weeks_per_year = 47\nhours_per_week = 40.5"
    let fifty : Environment := fun name => if name = weeksVariable then some " 50 " else none
    let aWeek : Environment := fun name => if name = hoursVariable then some "a week" else none
    (∃ s, load (some content) fifty = .ok s ∧ s.weeksPerYear = 50.0 ∧ s.hoursPerWeek = 40.5 ∧
      s.InRange) ∧
    (∃ file, ofToml content = .ok file ∧ file.weeksPerYear = 47.0) ∧
    load (some content) aWeek = .error (.settings (.notANumber hoursVariable "a week")) := by
  intro content fifty aWeek
  have hloads : (load (some content) fifty).toOption.any
      (fun s => s.weeksPerYear = 50.0 ∧ s.hoursPerWeek = 40.5) = true := by decide +kernel
  have hreads : (ofToml content).toOption.any (fun s => s.weeksPerYear = 47.0) = true := by
    decide +kernel
  have hunreadable : IsUnreadable aWeek hoursVariable "a week" := by
    refine ⟨by decide, ?_⟩
    rw [← Decimal.isSome_ofText?_iff]
    decide +kernel
  have hweeks : IsReadable aWeek weeksVariable := by
    rintro text ⟨hset, _⟩
    have hunset : aWeek weeksVariable = none := by decide
    rw [hunset] at hset
    cases hset
  obtain ⟨s, hs, hnumbers⟩ := exists_of_any_toOption hloads
  obtain ⟨file, hfile, hweek⟩ := exists_of_any_toOption hreads
  obtain ⟨hfifty, hhours⟩ := of_decide_eq_true hnumbers
  have hfailed := (settings_come_in_layers content aWeek).2.1 file hfile
  exact ⟨⟨s, hs, hfifty, hhours, ((settings_come_in_layers content fifty).1 s hs).2.1⟩,
    ⟨file, hfile, of_decide_eq_true hweek⟩,
    (hfailed _).mpr (Or.inl ⟨_, _, .hours hweeks hunreadable, rfl⟩)⟩

end Settings
end CarbonLedger
