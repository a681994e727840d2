import CarbonLedger.Calendar.Read
import CarbonLedger.Calendar.Written
import CarbonLedger.Factor.Basic

namespace CarbonLedger

def Value.ofCase {α : Type} [Cases α] (a : α) : Value := .text (Cases.name a)

def Value.ofInstant (t : Instant) : Value := .text t.write

def Value.ofInt64 (n : Int64) : Value := .int n.toInt

def Value.ofUInt32 (n : UInt32) : Value := .int n.toNat

def Reader.instant : Reader Instant
  | .text s =>
    match Instant.read? s with
    | some t => .ok t
    | none => .error (.kind (.text s) "an RFC 3339 formatted date and time string")
  | v => .error (.kind v "an RFC 3339 formatted date and time string")

namespace Label

def toValue : Label → Value
  | .text s => .text s
  | .number x => .ofFloat x

def read : Reader Label
  | .text s => .ok (.text s)
  | v => .number <$> Reader.float v

end Label

namespace Classification

def toValue (c : Classification) : Value := .table (c.entries.map fun e => (e.1, e.2.toValue))

/-- A key with the value null counts as one that is not there. -/
def read : Reader Classification := fun v => do
  let entries ← Reader.table (Reader.nullable Label.read) v
  return .ofList (entries.filterMap fun e => e.2.map (e.1, ·))

end Classification

namespace Quantities

def toValue (q : Quantities) : Value := .table (q.entries.map fun e => (e.1, .ofFloat e.2))

def read : Reader Quantities := fun v => .ofList <$> Reader.table Reader.float v

end Quantities

namespace Factor

def toValue (f : Factor) : Value :=
  .ofEntries [
    ("id", .ofInt64 f.id),
    ("emission_type", .ofCase f.kind),
    ("classification", f.classification.toValue),
    ("values", f.quantities.toValue),
    ("valid_from", .ofInstant f.validFrom),
    ("valid_to", .ofOption .ofInstant f.validTo)]

def ofFields (setting : Setting) (fields : Fields) : Checked Factor :=
  Factor.mk <$> fields.required 0 "id" Reader.int64
    <*> fields.required 1 "emission_type" (Reader.case setting)
    <*> fields.withDefault 2 "classification" Classification.read .empty
    <*> fields.withDefault 3 "values" Quantities.read .empty
    <*> fields.required 4 "valid_from" Reader.instant
    <*> fields.optional 5 "valid_to" Reader.instant

def read (setting : Setting) : Reader Factor :=
  Reader.record setting "a factor" 6 (ofFields setting)

end Factor

namespace Draft

def toValue (d : Draft) : Value :=
  .ofEntries [
    ("emission_type", .ofCase d.kind),
    ("classification", d.classification.toValue),
    ("values", d.quantities.toValue),
    ("valid_from", .ofInstant d.validFrom)]

def ofFields (setting : Setting) (fields : Fields) : Checked Draft :=
  Draft.mk <$> fields.required 0 "emission_type" (Reader.case setting)
    <*> fields.withDefault 1 "classification" Classification.read .empty
    <*> fields.withDefault 2 "values" Quantities.read .empty
    <*> fields.required 3 "valid_from" Reader.instant

def read (setting : Setting) : Reader Draft :=
  Reader.record setting "a draft" 4 (ofFields setting)

end Draft

end CarbonLedger
