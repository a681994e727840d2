import CarbonLedger.Document.Reading
import CarbonLedger.Text.Blank
import CarbonLedger.Text.Case

namespace CarbonLedger

inductive TransportMode
  | plane
  | train
  deriving DecidableEq, Repr

inductive HaulCategory
  | veryShort
  | short
  | medium
  | long
  deriving DecidableEq, Repr

inductive CabinClass
  | economy
  | premiumEconomy
  | business
  | first
  | class1
  | class2
  deriving DecidableEq, Repr

instance : Cases TransportMode where
  cases := [.plane, .train]
  name
    | .plane => "plane"
    | .train => "train"
  aliases := [("flight", .plane)]

instance : Cases HaulCategory where
  cases := [.veryShort, .short, .medium, .long]
  name
    | .veryShort => "very_short_haul"
    | .short => "short_haul"
    | .medium => "medium_haul"
    | .long => "long_haul"

instance : Cases CabinClass where
  cases := [.economy, .premiumEconomy, .business, .first, .class1, .class2]
  name
    | .economy => "economy"
    | .premiumEconomy => "premium_economy"
    | .business => "business"
    | .first => "first"
    | .class1 => "class_1"
    | .class2 => "class_2"

def Cases.ofNameAnyCase? {α : Type} [Cases α] (s : String) : Option α :=
  (Cases.readable.find? fun e => Text.sameLetters e.1 s).map (·.2)

structure UnknownMode where
  text : String
  deriving DecidableEq, Repr

def UnknownMode.message (e : UnknownMode) : String :=
  "invalid transport mode " ++ Text.quoted e.text ++ ": expected plane, flight or train"

def TransportMode.ofText (s : String) : Except UnknownMode TransportMode :=
  match Cases.ofNameAnyCase? (Text.trim s) with
  | some mode => .ok mode
  | none => .error ⟨s⟩

def HaulCategory.ofKm (km : Float) : HaulCategory :=
  if km < 800.0 then .veryShort
  else if km < 1500.0 then .short
  else if km < 4000.0 then .medium
  else .long

end CarbonLedger
