import CarbonLedger.Document.Reading
import CarbonLedger.Document.Toml.Reader

namespace CarbonLedger

inductive FileError
  | notToml
  | mismatch (cause : Mismatch)

def Setting.file : Setting := .onTheSpot .toml

namespace FileError

def ofToml {α : Type} (read : Reader α) (content : String) : Except FileError α :=
  match Toml.read? content with
  | none => .error .notToml
  | some v => (read v).mapError .mismatch

end FileError

def Reader.under {α : Type} (key : String) (read : Reader α) : Reader α := fun v =>
  match v.get? key with
  | some inner => read inner
  | none => .error (.absent key)

end CarbonLedger
