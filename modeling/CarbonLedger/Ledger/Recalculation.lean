import CarbonLedger.Emission.Evaluation
import CarbonLedger.Ledger.Store

/-! Recalculating subjects one after the other. The first error stops the run, and what was
committed before it stays. -/

namespace CarbonLedger

structure RunOptions where
  chunkSize : Nat
  requireComplete : Bool

namespace RunOptions

def default : RunOptions := ⟨100, false⟩

end RunOptions

inductive RunError
  | trip (e : TripError)
  | noFormula (subject : Int64) (recordType : String)
  | unresolved (message : String)
  | commit (e : CommitError)

def RunError.message : RunError → String
  | .trip e => e.message
  | .noFormula subject recordType => "No formula for record type '" ++ recordType ++
    "' (subject " ++ toString subject.toInt ++ ")"
  | .unresolved message => "Factor not resolved: " ++ message
  | .commit e => e.message

structure InvalidActivity where
  subject : Int64
  message : String
  deriving DecidableEq, Repr

structure Report where
  committed : List Emission
  incomplete : List Emission
  missing : List Int64
  invalid : List InvalidActivity
  ambiguities : List (Int64 × Ambiguity)

namespace Report

def empty : Report := ⟨[], [], [], [], []⟩

instance : Inhabited Report := ⟨empty⟩

def append (r s : Report) : Report :=
  ⟨r.committed ++ s.committed, r.incomplete ++ s.incomplete, r.missing ++ s.missing,
    r.invalid ++ s.invalid, r.ambiguities ++ s.ambiguities⟩

instance : Append Report := ⟨append⟩

def summary (r : Report) : String :=
  toString r.committed.length ++ " committed, " ++ toString r.incomplete.length ++
    " incomplete, " ++ toString r.missing.length ++ " missing, " ++ toString r.invalid.length ++
    " invalid, " ++ toString r.ambiguities.length ++ " ambiguous"

end Report

inductive Progress
  | total (n : Nat)
  | message (text : String)
  | advance (n : Nat)
  | finish (text : String)
  deriving DecidableEq, Repr

structure Run where
  ledger : Ledger
  progress : List Progress
  outcome : Except RunError Report

namespace Ledger

def settle (l : Ledger) (requireComplete : Bool) (subject : Int64) (e : Evaluation) :
    Except RunError (Ledger × Report) :=
  let complete := e.emissions.filter Emission.isComplete
  let incomplete := e.emissions.filter fun x => !x.isComplete
  let ambiguities := e.ambiguities.map (subject, ·)
  match requireComplete, incomplete with
  | true, first :: _ => .error (.unresolved (first.gap?.getD ""))
  | _, _ =>
    -- Nothing is committed for nothing, so the current rows of the subject stay.
    if complete.isEmpty then .ok (l, ⟨[], incomplete, [], [], ambiguities⟩)
    else
      match l.commit complete with
      | .ok (l, stored) => .ok (l, ⟨stored, incomplete, [], [], ambiguities⟩)
      | .error e => .error (.commit e)

def recalculateOne (l : Ledger) (b : Basis) (requireComplete : Bool) (computedAt : Instant)
    (subject : Int64) : Except RunError (Ledger × Report) :=
  match l.activity? subject with
  | none => .ok (l, { Report.empty with missing := [subject] })
  | some stored =>
    match stored.decode with
    -- A kind without formula stops the run; inputs that do not fit their kind do not.
    | .error (.unknownKind recordType) => .error (.noFormula subject recordType)
    | .error e => .ok (l, { Report.empty with invalid := [⟨subject, e.message⟩] })
    | .ok record =>
      match b.evaluate record computedAt with
      | .ok evaluation => l.settle requireComplete subject evaluation
      | .error e => .error (.trip e)

structure State where
  ledger : Ledger
  report : Report
  progress : List Progress
  error : Option RunError

def step (b : Basis) (requireComplete : Bool) (computedAt : Instant) (s : State)
    (subject : Int64) : State :=
  match s.error with
  | some _ => s
  | none =>
    match s.ledger.recalculateOne b requireComplete computedAt subject with
    | .ok (l, r) => { s with
        ledger := l
        report := s.report ++ r
        progress := s.progress ++ [.advance 1] }
    | .error e => { s with error := some e }

/-- The first `n + 1` elements, the next `n + 1`, and so on. -/
def chunks {α : Type} (n : Nat) (l : List α) : List (List α) :=
  match l with
  | [] => []
  | a :: r => (a :: r.take n) :: chunks n (r.drop n)
termination_by l.length
decreasing_by simp only [List.length_drop, List.length_cons]; omega

def recalculate (l : Ledger) (b : Basis) (options : RunOptions) (computedAt : Instant)
    (subjects : List Int64) : Run :=
  let start : State := ⟨l, .empty,
    [.total subjects.length, .message "Recalculating emissions"], none⟩
  let s := (chunks (options.chunkSize - 1) subjects).foldl
    (fun s chunk => chunk.foldl (step b options.requireComplete computedAt) s) start
  match s.error with
  | some e => ⟨s.ledger, s.progress, .error e⟩
  | none => ⟨s.ledger, s.progress ++ [.finish s.report.summary], .ok s.report⟩

end Ledger

end CarbonLedger
