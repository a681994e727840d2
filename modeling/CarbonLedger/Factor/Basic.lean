import CarbonLedger.Calendar.Instant
import CarbonLedger.Document.Reading

namespace CarbonLedger

inductive EmissionKind
  | equipment
  | electricityMix
  | flight
  | train
  | headcount
  | food
  | waste
  | transport
  | greyEnergy
  | externalCloud
  | externalAi
  deriving DecidableEq, Repr

namespace EmissionKind

instance : Cases EmissionKind where
  cases := [.equipment, .electricityMix, .flight, .train, .headcount, .food, .waste, .transport,
    .greyEnergy, .externalCloud, .externalAi]
  name
    | .equipment => "equipment"
    | .electricityMix => "electricity_mix"
    | .flight => "flight"
    | .train => "train"
    | .headcount => "headcount"
    | .food => "food"
    | .waste => "waste"
    | .transport => "transport"
    | .greyEnergy => "grey_energy"
    | .externalCloud => "external_cloud"
    | .externalAi => "external_ai"

def name (k : EmissionKind) : String := Cases.name k

def place : EmissionKind → Nat
  | .equipment => 0
  | .electricityMix => 1
  | .flight => 2
  | .train => 3
  | .headcount => 4
  | .food => 5
  | .waste => 6
  | .transport => 7
  | .greyEnergy => 8
  | .externalCloud => 9
  | .externalAi => 10

def ofHeadcount : List EmissionKind := [.food, .waste, .transport, .greyEnergy]

end EmissionKind

inductive Label
  | text (s : String)
  | number (x : Float)

/-- Labels are equal when they are equal texts or equal numbers; what is no number equals nothing,
and the two zeros are equal. -/
protected def Label.beq : Label → Label → Bool
  | .text s, .text t => s == t
  | .number x, .number y => x == y
  | _, _ => false

instance : BEq Label := ⟨Label.beq⟩

/-- A label equals a text only if it is that text. -/
theorem Label.beq_text_iff {a : Label} {t : String} : (a == .text t) = true ↔ a = .text t := by
  cases a with
  | text s =>
    have hs : (Label.text s == Label.text t) = (s == t) := rfl
    rw [hs, beq_iff_eq, Label.text.injEq]
  | number x => exact iff_of_false Bool.false_ne_true (by simp)

def Label.shown : Label → String
  | .text s => s
  | .number x => Decimal.shown x

def Label.text? : Label → Option String
  | .text s => some s
  | .number _ => none

abbrev Classification := KeyMap Label

def Classification.shown (c : Classification) : String :=
  "\x7b" ++ ", ".intercalate (c.entries.map fun e => e.1 ++ "=" ++ e.2.shown) ++ "\x7d"

abbrev Quantities := KeyMap Float

def Quantities.usable? (q : Quantities) (key : String) : Option Float :=
  (q.get? key).filter Float.isFinite

/-- A factor. It holds from `validFrom` on and until before `validTo`; one without an end is
current. -/
structure Factor where
  id : Int64
  kind : EmissionKind
  classification : Classification
  quantities : Quantities
  validFrom : Instant
  validTo : Option Instant

namespace Factor

def isCurrent (f : Factor) : Bool := f.validTo.isNone

def isValidAt (f : Factor) (t : Instant) : Bool :=
  f.validFrom ≤ t && f.validTo.all fun e => t < e

def inWindow (f : Factor) (asOf : Option Instant) : Bool :=
  match asOf with
  | none => f.isCurrent
  | some t => f.isValidAt t

def sharesSlot (f g : Factor) : Bool := f.kind == g.kind && f.classification == g.classification

end Factor

structure Draft where
  kind : EmissionKind
  classification : Classification
  quantities : Quantities
  validFrom : Instant

def Draft.toFactor (d : Draft) (id : Int64) : Factor :=
  ⟨id, d.kind, d.classification, d.quantities, d.validFrom, none⟩

end CarbonLedger
