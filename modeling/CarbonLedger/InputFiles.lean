import CarbonLedger.Activity.Data
import CarbonLedger.Document.File
import CarbonLedger.Emission.Settings

namespace CarbonLedger

def Factor.listOfToml (content : String) : Except FileError (List Factor) :=
  FileError.ofToml (Reader.under "factors" (Reader.list (Factor.read .file))) content

def Draft.ofToml (content : String) : Except FileError Draft :=
  FileError.ofToml (Reader.under "factor" (Draft.read .file)) content

def ActivityRecord.listOfToml (content : String) : Except FileError (List ActivityRecord) :=
  FileError.ofToml (Reader.under "activities" (Reader.list (ActivityRecord.read .file))) content

namespace Settings

inductive LoadError
  | file (cause : FileError)
  | settings (cause : SettingsError)

def ofToml (content : String) : Except LoadError Settings := do
  let s ← (FileError.ofToml (Settings.read .file) content).mapError .file
  s.validate.mapError .settings
  return s

/-- The settings of a file if there is one, or else the defaults, with the numbers of the
environment put in their place. -/
def load (content : Option String) (env : Environment) : Except LoadError Settings := do
  let s ← match content with
    | some content => ofToml content
    | none => pure default
  (s.withEnvironment env).mapError .settings

end Settings

end CarbonLedger
