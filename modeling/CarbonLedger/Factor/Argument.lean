import CarbonLedger.Decimal.Read
import CarbonLedger.Factor.Basic
import CarbonLedger.Text.Blank

namespace CarbonLedger

inductive ArgumentError
  | noSign (argument : String)
  | noKey (argument : String)
  deriving DecidableEq, Repr

def ArgumentError.message : ArgumentError → String
  | .noSign argument => "expected key=value, got " ++ Text.quoted argument
  | .noKey argument => "missing key in " ++ Text.quoted argument

def splitAtEquals? (s : String) : Option (String × String) :=
  match s.toList.dropWhile (· != '=') with
  | _ :: value => some (String.ofList (s.toList.takeWhile (· != '=')), String.ofList value)
  | [] => none

def Label.ofText (s : String) : Label :=
  match Decimal.ofText? s with
  | some x => .number x
  | none => .text s

def parseArgument (argument : String) : Except ArgumentError (String × Label) :=
  match splitAtEquals? argument with
  | none => .error (.noSign argument)
  | some (key, value) =>
    match Text.filled? key with
    | none => .error (.noKey argument)
    | some key => .ok (key, .ofText (Text.trim value))

end CarbonLedger
