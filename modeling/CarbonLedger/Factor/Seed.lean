import CarbonLedger.Factor.Basic

namespace CarbonLedger.Factor

def seedStart : Instant := ⟨1704067200, 0⟩

def seed (id : Int64) (kind : EmissionKind) (labels : List (String × String))
    (quantities : List (String × Float)) : Factor :=
  ⟨id, kind, .ofList (labels.map fun e => (e.1, .text e.2)), .ofList quantities, seedStart, none⟩

def flights : List Factor := [
  seed 1 .flight [("haul_category", "very_short_haul")]
    [("impact_score", 0.2535), ("rfi_adjustment", 2.0)],
  seed 2 .flight [("haul_category", "short_haul")]
    [("impact_score", 0.1548), ("rfi_adjustment", 2.0)],
  seed 3 .flight [("haul_category", "medium_haul")]
    [("impact_score", 0.1202), ("rfi_adjustment", 2.0)],
  seed 4 .flight [("haul_category", "long_haul")]
    [("impact_score", 0.1047), ("rfi_adjustment", 2.0)]]

def trains : List Factor := [
  seed 11 .train [("country_code", "CH")] [("impact_score", 0.00979)],
  seed 12 .train [("country_code", "DE")] [("impact_score", 0.0322)],
  seed 13 .train [("country_code", "FR")] [("impact_score", 0.0045)],
  seed 14 .train [("country_code", "IT")] [("impact_score", 0.0292)],
  seed 15 .train [("country_code", "AT")] [("impact_score", 0.0154)],
  seed 16 .train [("country_code", "RoW")] [("impact_score", 0.0357)]]

def grids : List Factor := [
  seed 21 .electricityMix [("country_code", "CH")] [("kg_co2eq_per_kwh", 0.125)],
  seed 22 .electricityMix [("country_code", "RoW")] [("kg_co2eq_per_kwh", 0.4)]]

def devices : List Factor := [
  seed 31 .equipment [("submodule", "scientific"), ("class", "Centrifugation")]
    [("active_power_w", 500.0), ("standby_power_w", 50.0)],
  seed 32 .equipment [("submodule", "scientific"), ("class", "Centrifugation"),
      ("sub_class", "Ultra centrifuges")]
    [("active_power_w", 1200.0), ("standby_power_w", 150.0)],
  seed 33 .equipment [("submodule", "scientific"), ("class", "Centrifugation"),
      ("sub_class", "Benchtop centrifuges")]
    [("active_power_w", 350.0), ("standby_power_w", 15.0)],
  seed 34 .equipment [("submodule", "scientific"), ("class", "Cold storage"),
      ("sub_class", "Ultra-low freezers")]
    [("active_power_w", 900.0), ("standby_power_w", 900.0)],
  seed 35 .equipment [("submodule", "scientific"), ("class", "Microscopy")]
    [("active_power_w", 800.0), ("standby_power_w", 40.0)],
  seed 41 .equipment [("submodule", "it"), ("class", "Laptop")]
    [("active_power_w", 30.0), ("standby_power_w", 2.0)],
  seed 42 .equipment [("submodule", "it"), ("class", "Desktop")]
    [("active_power_w", 90.0), ("standby_power_w", 5.0)],
  seed 43 .equipment [("submodule", "it"), ("class", "Monitor")]
    [("active_power_w", 30.0), ("standby_power_w", 1.0)]]

def positions : List Factor := [
  seed 51 .headcount []
    [("food_kg", 420.0), ("waste_kg", 24.0), ("transport_kg", 310.0), ("grey_energy_kg", 180.0)],
  seed 52 .headcount [("category", "student")]
    [("food_kg", 380.0), ("waste_kg", 18.0), ("transport_kg", 240.0), ("grey_energy_kg", 90.0)]]

def cloudServices : List Factor := [
  seed 61 .externalCloud [("provider", "aws")] [("kg_co2eq_per_currency_unit", 0.18)],
  seed 62 .externalCloud [("provider", "aws"), ("service", "compute")]
    [("kg_co2eq_per_currency_unit", 0.24)],
  seed 63 .externalCloud [("provider", "gcp")] [("kg_co2eq_per_currency_unit", 0.11)]]

def modelServices : List Factor := [
  seed 71 .externalAi [("provider", "openai")] [("g_co2eq_per_unit", 4.32)],
  seed 72 .externalAi [("provider", "openai"), ("use_case", "image_generation")]
    [("g_co2eq_per_unit", 18.0)],
  seed 73 .externalAi [("provider", "mistral")] [("g_co2eq_per_unit", 1.14)]]

def seeds : List Factor :=
  flights ++ trains ++ grids ++ devices ++ positions ++ cloudServices ++ modelServices

end CarbonLedger.Factor
