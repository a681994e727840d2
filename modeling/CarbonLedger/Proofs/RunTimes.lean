import CarbonLedger.Ledger.Recalculation
import CarbonLedger.Proofs.PointInTime

namespace CarbonLedger

def Emission.untimed (e : Emission) : Emission := { e with computedAt := default }

namespace Report

def untimed (r : Report) : Report :=
  { r with
    committed := r.committed.map Emission.untimed
    incomplete := r.incomplete.map Emission.untimed }

theorem append_def (r s : Report) :
    r ++ s = ⟨r.committed ++ s.committed, r.incomplete ++ s.incomplete, r.missing ++ s.missing,
      r.invalid ++ s.invalid, r.ambiguities ++ s.ambiguities⟩ := rfl

theorem untimed_append (r s : Report) : (r ++ s).untimed = r.untimed ++ s.untimed := by
  simp only [append_def, untimed, List.map_append]

/-- A summary counts, and times do not count. -/
theorem summary_untimed (r : Report) : r.untimed.summary = r.summary := by
  simp only [summary, untimed, List.length_map]

end Report

namespace Ledger

def untimed (l : Ledger) : Ledger := { l with rows := l.rows.map Emission.untimed }

theorem checkAfter_untimed (es : List Emission) (seen : List (Int64 × EmissionKind)) :
    checkAfter (es.map Emission.untimed) seen = checkAfter es seen := by
  induction es generalizing seen with
  | nil => rfl
  | cons e r ih =>
    have hgap : e.untimed.gap? = e.gap? := rfl
    have hkey : (e.untimed.subject, e.untimed.kind) = (e.subject, e.kind) := rfl
    rw [List.map_cons, checkAfter, checkAfter, hgap, hkey, ih]
    rfl

theorem retire_untimed (subjects : List Int64) (e : Emission) :
    (retire subjects e).untimed = retire subjects e.untimed := by
  have hcurrent : e.untimed.isCurrent = e.isCurrent := rfl
  have hsubject : e.untimed.subject = e.subject := rfl
  unfold retire
  rw [hcurrent, hsubject]
  split <;> rfl

/-- Writing does not look at times. -/
theorem replace_untimed (l : Ledger) (es : List Emission) :
    (l.replace es).untimed = l.untimed.replace (es.map Emission.untimed) := by
  have hsubjects : (es.map Emission.untimed).map (·.subject) = es.map (·.subject) := by
    rw [List.map_map]
    rfl
  have hrows : (l.rows.map (retire (es.map (·.subject)))).map Emission.untimed =
      (l.rows.map Emission.untimed).map (retire (es.map (·.subject))) := by
    rw [List.map_map, List.map_map]
    exact List.map_congr_left fun e _ => retire_untimed _ e
  have hnew : (es.map Emission.asCurrent).map Emission.untimed =
      (es.map Emission.untimed).map Emission.asCurrent := by
    rw [List.map_map, List.map_map]
    rfl
  rw [untimed, replace, replace, hsubjects, List.map_append, hrows, hnew]
  rfl

theorem history_untimed (l : Ledger) (subject : Int64) :
    l.untimed.history subject = (l.history subject).map Emission.untimed := by
  rw [history, history, untimed, List.filter_map]
  rfl

/-- The order of current rows is that of their kinds, whenever they were computed. -/
theorem current_untimed (l : Ledger) (subject : Int64) :
    l.untimed.current subject = (l.current subject).map Emission.untimed := by
  let before (e f : Emission) : Bool := e.kind.place ≤ f.kind.place
  rw [current, current, untimed, List.filter_map]
  exact (List.map_mergeSort (r := before) (s := before) (f := Emission.untimed)
    fun _ _ _ _ => rfl).symm

/-- A commit does not look at times. -/
theorem commit_untimed (l : Ledger) (es : List Emission) :
    l.untimed.commit (es.map Emission.untimed) =
      (l.commit es).map fun p => (p.1.untimed, p.2.map Emission.untimed) := by
  have hcommit (l : Ledger) (es : List Emission) :
      l.commit es = (check es).map fun _ => (l.replace es, es.map Emission.asCurrent) := by
    rw [commit, Write.outcome, on_put]
    cases check es <;> rfl
  rw [hcommit, hcommit, check, checkAfter_untimed, ← check]
  cases check es with
  | error e => rfl
  | ok u =>
    simp only [Except.map, replace_untimed, List.map_map]
    rfl

def commitSome (l : Ledger) (complete : List Emission) (rest : Report) :
    Except RunError (Ledger × Report) :=
  if complete.isEmpty then .ok (l, rest)
  else
    match l.commit complete with
    | .ok (l, stored) => .ok (l, { rest with committed := stored })
    | .error e => .error (.commit e)

theorem settle_eq (l : Ledger) (requireComplete : Bool) (subject : Int64) (e : Evaluation) :
    l.settle requireComplete subject e =
      match if requireComplete then e.emissions.find? fun x => !x.isComplete else none with
      | some first => .error (.unresolved (first.gap?.getD ""))
      | none => l.commitSome (e.emissions.filter Emission.isComplete)
          ⟨[], e.emissions.filter fun x => !x.isComplete, [], [],
            e.ambiguities.map (subject, ·)⟩ := by
  rw [← List.head?_filter]
  unfold settle
  cases requireComplete with
  | false => rfl
  | true => cases e.emissions.filter fun x => !x.isComplete <;> rfl

def withoutTimes (p : Ledger × Report) : Ledger × Report := (p.1.untimed, p.2.untimed)

theorem commitSome_untimed (l : Ledger) (complete : List Emission) (rest : Report) :
    (l.commitSome complete rest).map withoutTimes =
      l.untimed.commitSome (complete.map Emission.untimed) rest.untimed := by
  rw [commitSome, commitSome, List.isEmpty_map, commit_untimed]
  split
  · rfl
  · cases l.commit complete <;> rfl

theorem settle_untimed (l : Ledger) (requireComplete : Bool) (subject : Int64) (e : Evaluation) :
    (l.settle requireComplete subject e).map withoutTimes =
      l.untimed.settle requireComplete subject (e.stamped default) := by
  have hstamped : (e.stamped default).emissions = e.emissions.map Emission.untimed := rfl
  have hfilter (p : Emission → Bool) (hp : p ∘ Emission.untimed = p) :
      (e.stamped default).emissions.filter p = (e.emissions.filter p).map Emission.untimed := by
    rw [hstamped, List.filter_map, hp]
  have hfind : (e.stamped default).emissions.find? (fun x => !x.isComplete) =
      (e.emissions.find? fun x => !x.isComplete).map Emission.untimed := by
    rw [hstamped, List.find?_map]
    rfl
  rw [settle_eq, settle_eq, hfilter _ rfl, hfilter _ rfl, hfind]
  cases requireComplete with
  | false => exact commitSome_untimed _ _ _
  | true =>
    cases e.emissions.find? fun x => !x.isComplete with
    | none => exact commitSome_untimed _ _ _
    | some first => rfl

/-- Recalculating a subject looks at the time only to stamp it. -/
theorem recalculateOne_untimed (l : Ledger) (b : Basis) (requireComplete : Bool)
    (computedAt : Instant) (subject : Int64) :
    (l.recalculateOne b requireComplete computedAt subject).map withoutTimes =
      l.untimed.recalculateOne b requireComplete default subject := by
  have hactivity : l.untimed.activity? subject = l.activity? subject := rfl
  rw [recalculateOne, recalculateOne, hactivity]
  cases l.activity? subject with
  | none => rfl
  | some stored =>
    cases hdecode : stored.decode with
    | error e => cases e <;> simp only [hdecode] <;> rfl
    | ok record =>
      simp only [hdecode]
      rw [Basis.evaluate_stamped b record computedAt default]
      cases b.evaluate record computedAt with
      | error e => rfl
      | ok evaluation => exact settle_untimed _ _ _ _

def State.untimed (s : State) : State :=
  { s with ledger := s.ledger.untimed, report := s.report.untimed }

/-- Taking a subject at another time does the same but for the times. -/
theorem step_untimed (b : Basis) (requireComplete : Bool) (computedAt : Instant) (s : State)
    (subject : Int64) :
    (step b requireComplete computedAt s subject).untimed =
      step b requireComplete default s.untimed subject := by
  have herror : s.untimed.error = s.error := rfl
  have hledger : s.untimed.ledger = s.ledger.untimed := rfl
  rw [step, step, herror, hledger, ← recalculateOne_untimed s.ledger b requireComplete computedAt]
  cases s.error with
  | some e => rfl
  | none =>
    cases s.ledger.recalculateOne b requireComplete computedAt subject with
    | error e => rfl
    | ok p =>
      simp only [Except.map, withoutTimes, State.untimed, Report.untimed_append]

end Ledger

end CarbonLedger
