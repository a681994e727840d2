import CarbonLedger.Activity.Data
import CarbonLedger.Document.Register
import CarbonLedger.Emission.Result
import CarbonLedger.Write

/-! Stored activities, and the rows of all emissions that were ever committed. -/

namespace CarbonLedger

structure StoredActivity where
  subject : Int64
  recordType : String
  inputs : Value

namespace StoredActivity

def ofRecord (r : ActivityRecord) : StoredActivity :=
  ⟨r.subject, Cases.name r.activity.kind, r.activity.inputs⟩

def decode (s : StoredActivity) : Except ActivityError ActivityRecord :=
  ActivityRecord.mk s.subject <$> Activity.decode s.recordType s.inputs

end StoredActivity

inductive CommitError
  | incomplete (gap : String)
  | repeated (kind : EmissionKind) (subject : Int64)
  deriving DecidableEq, Repr

def CommitError.message : CommitError → String
  | .incomplete gap => "Invalid emission write: " ++ gap
  | .repeated kind subject => "Invalid emission write: two " ++ kind.name ++
    " results for subject " ++ toString subject.toInt ++ " in one write"

structure Ledger where
  activities : Register StoredActivity
  rows : List Emission

namespace Ledger

def empty : Ledger := ⟨.empty, []⟩

instance : Inhabited Ledger := ⟨empty⟩

def store (l : Ledger) (s : StoredActivity) : Ledger :=
  { l with activities := l.activities.insert s.subject s }

def record (l : Ledger) (r : ActivityRecord) : Ledger := l.store (.ofRecord r)

def activity? (l : Ledger) (subject : Int64) : Option StoredActivity :=
  l.activities.find? subject

/-- A subject has the activity that was stored for it last. -/
@[simp]
theorem activity?_store (l : Ledger) (s : StoredActivity) (subject : Int64) :
    (l.store s).activity? subject = if subject = s.subject then some s else l.activity? subject :=
  Register.find?_insert l.activities s.subject s subject

/-- Checks emissions from left to right: each has to be complete, and of another subject or kind
than those before it. The second argument holds the ones that were seen. -/
def checkAfter : List Emission → List (Int64 × EmissionKind) → Except CommitError Unit
  | [], _ => .ok ()
  | e :: r, seen =>
    match e.gap? with
    | some gap => .error (.incomplete gap)
    | none =>
      if seen.contains (e.subject, e.kind) then .error (.repeated e.kind e.subject)
      else checkAfter r ((e.subject, e.kind) :: seen)

def check (emissions : List Emission) : Except CommitError Unit := checkAfter emissions []

/-- Rows pass the check when all are complete and no subject has one kind twice, the rows seen
before included. -/
theorem checkAfter_eq_ok_iff {emissions : List Emission} {seen : List (Int64 × EmissionKind)} :
    checkAfter emissions seen = .ok () ↔ (∀ e ∈ emissions, e.isComplete = true) ∧
      (emissions.map fun e => (e.subject, e.kind)).Nodup ∧
      ∀ e ∈ emissions, (e.subject, e.kind) ∉ seen := by
  induction emissions generalizing seen with
  | nil => simp [checkAfter]
  | cons e r ih =>
    rw [checkAfter]
    split
    · next gap hgap =>
      have hincomplete : e.isComplete = false := by
        cases h : e.isComplete with
        | false => rfl
        | true =>
          rw [Emission.gap?_eq_none_iff.2 h] at hgap
          cases hgap
      simp [hincomplete]
    · next hgap =>
      have hcomplete := Emission.gap?_eq_none_iff.1 hgap
      split
      · next hseen => simp_all
      · next hseen =>
        have hnew : (e.subject, e.kind) ∉ seen := by simpa using hseen
        rw [ih]
        constructor
        · rintro ⟨hc, hd, hs⟩
          refine ⟨List.forall_mem_cons.2 ⟨hcomplete, hc⟩, List.nodup_cons.2 ⟨?_, hd⟩,
            List.forall_mem_cons.2 ⟨hnew, ?_⟩⟩
          · intro hmem
            obtain ⟨x, hx, hxe⟩ := List.mem_map.1 hmem
            exact hs x hx (List.mem_cons.2 (Or.inl hxe))
          · intro x hx hxs
            exact hs x hx (List.mem_cons_of_mem _ hxs)
        · rintro ⟨hc, hd, hs⟩
          obtain ⟨hfresh, hd⟩ := List.nodup_cons.1 hd
          refine ⟨(List.forall_mem_cons.1 hc).2, hd, ?_⟩
          intro x hx hxs
          rcases List.mem_cons.1 hxs with hxe | hxs
          · exact hfresh (List.mem_map.2 ⟨x, hx, hxe⟩)
          · exact (List.forall_mem_cons.1 hs).2 x hx hxs

/-- Emissions can be committed together exactly if all are complete and no two are of one subject
and one kind. -/
theorem check_eq_ok_iff {emissions : List Emission} :
    check emissions = .ok () ↔ (∀ e ∈ emissions, e.isComplete = true) ∧
      (emissions.map fun e => (e.subject, e.kind)).Nodup := by
  rw [check, checkAfter_eq_ok_iff]
  simp

def retire (subjects : List Int64) (row : Emission) : Emission :=
  if row.isCurrent && subjects.contains row.subject then row.asHistory else row

/-- The ledger with emissions as the current rows of their subjects. All rows of these subjects that
were current before become history, whatever their kind. -/
def replace (l : Ledger) (emissions : List Emission) : Ledger :=
  { l with rows := l.rows.map (retire (emissions.map (·.subject))) ++
      emissions.map Emission.asCurrent }

def put (emissions : List Emission) : Write Ledger CommitError (List Emission) := do
  check emissions
  modify fun l => { l with rows := l.rows.map (retire (emissions.map (·.subject))) }
  modify fun l => { l with rows := l.rows ++ emissions.map Emission.asCurrent }
  return emissions.map Emission.asCurrent

/-- Emissions are put in exactly if they can be committed together, and refused ones change nothing.
-/
theorem on_put (emissions : List Emission) (l : Ledger) :
    (put emissions).on l =
      match check emissions with
      | .ok () => (.ok (emissions.map Emission.asCurrent), l.replace emissions)
      | .error e => (.error e, l) := by
  simp only [put, Write.on_bind, Write.on_lift]
  cases h : check emissions <;> rfl

def commit (l : Ledger) (emissions : List Emission) :
    Except CommitError (Ledger × List Emission) :=
  (put emissions).outcome l

theorem subject_retire (subjects : List Int64) (row : Emission) :
    (retire subjects row).subject = row.subject := by
  rw [retire]
  split <;> rfl

def history (l : Ledger) (subject : Int64) : List Emission :=
  l.rows.filter fun e => e.subject == subject

/-- What a commit does to the rows of one subject: those that were current become history if the
subject is written, and what is written for it follows. -/
theorem history_replace (l : Ledger) (emissions : List Emission) (subject : Int64) :
    (l.replace emissions).history subject =
      (l.history subject).map (retire (emissions.map (·.subject))) ++
        (emissions.filter fun e => e.subject == subject).map Emission.asCurrent := by
  have hr : (fun e => e.subject == subject) ∘ retire (emissions.map (·.subject)) =
      fun e => e.subject == subject := by
    funext e
    simp only [Function.comp_apply, subject_retire]
  rw [history, history, replace, List.filter_append, List.filter_map, List.filter_map, hr]
  rfl

def current (l : Ledger) (subject : Int64) : List Emission :=
  (l.rows.filter fun e => e.subject == subject && e.isCurrent).mergeSort
    fun a b => a.kind.place ≤ b.kind.place

end Ledger

end CarbonLedger
