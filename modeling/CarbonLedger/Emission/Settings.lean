import CarbonLedger.Decimal.Read
import CarbonLedger.Factor.Data
import CarbonLedger.Factor.Query

namespace CarbonLedger

structure Settings where
  weeksPerYear : Float
  hoursPerWeek : Float
  defaultKgPerKwh : Float
  domesticCountry : String
  ties : TiePolicy

inductive SettingsError
  | notANumber (name : String) (value : String)
  | notPositive (field : String) (value : Float)
  | negativeDefault (value : Float)
  | blankCountry

def SettingsError.message : SettingsError → String
  | .notANumber name value =>
    "Invalid value " ++ Text.quoted value ++ " for " ++ name ++ ": expected a number"
  | .notPositive field value =>
    "Invalid config: " ++ field ++ " must be a positive number, got " ++ Decimal.shown value
  | .negativeDefault value =>
    "Invalid config: default_kg_co2eq_per_kwh must be a non-negative number, got " ++
      Decimal.shown value
  | .blankCountry => "Invalid config: domestic_country_code must not be empty"

namespace Settings

def default : Settings where
  weeksPerYear := 52.0
  hoursPerWeek := 168.0
  defaultKgPerKwh := 0.125
  domesticCountry := Country.home
  ties := .takeFirst

instance : Inhabited Settings := ⟨default⟩

def positive (field : String) (x : Float) : Except SettingsError Unit :=
  if !x.isFinite || x ≤ 0.0 then .error (.notPositive field x) else .ok ()

def notNegative (x : Float) : Except SettingsError Unit :=
  if !x.isFinite || x < 0.0 then .error (.negativeDefault x) else .ok ()

def notBlank (code : String) : Except SettingsError Unit :=
  if Text.isBlank code then .error .blankCountry else .ok ()

def validate (s : Settings) : Except SettingsError Unit := do
  positive "weeks_per_year" s.weeksPerYear
  positive "hours_per_week" s.hoursPerWeek
  notNegative s.defaultKgPerKwh
  notBlank s.domesticCountry

abbrev Environment := String → Option String

def weeksVariable : String := "WEEKS_PER_YEAR"

def hoursVariable : String := "HOURS_PER_WEEK"

def intensityVariable : String := "DEFAULT_KG_CO2EQ_PER_KWH"

def override (env : Environment) (name : String) (x : Float) : Except SettingsError Float :=
  match env name with
  | none => .ok x
  | some value =>
    match Decimal.ofText? (Text.trim value) with
    | some y => .ok y
    | none => .error (.notANumber name value)

def withEnvironment (s : Settings) (env : Environment) : Except SettingsError Settings := do
  -- All variables are read before any constant is checked.
  let weeks ← override env weeksVariable s.weeksPerYear
  let hours ← override env hoursVariable s.hoursPerWeek
  let intensity ← override env intensityVariable s.defaultKgPerKwh
  let s := { s with weeksPerYear := weeks, hoursPerWeek := hours, defaultKgPerKwh := intensity }
  s.validate
  return s

def toValue (s : Settings) : Value :=
  .ofEntries [
    ("weeks_per_year", .ofFloat s.weeksPerYear),
    ("hours_per_week", .ofFloat s.hoursPerWeek),
    ("default_kg_co2eq_per_kwh", .ofFloat s.defaultKgPerKwh),
    ("domestic_country_code", .text s.domesticCountry),
    ("ambiguity_policy", .ofCase s.ties)]

def read (setting : Setting) : Reader Settings :=
  Reader.record setting "settings" 5 fun fields =>
    Settings.mk <$> fields.withDefault 0 "weeks_per_year" Reader.float default.weeksPerYear
      <*> fields.withDefault 1 "hours_per_week" Reader.float default.hoursPerWeek
      <*> fields.withDefault 2 "default_kg_co2eq_per_kwh" Reader.float default.defaultKgPerKwh
      <*> fields.withDefault 3 "domestic_country_code" Reader.text default.domesticCountry
      <*> fields.withDefault 4 "ambiguity_policy" (Reader.case setting) default.ties

end Settings

end CarbonLedger
