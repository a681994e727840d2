import CarbonLedger.Proofs.RunTimes

/-! Recalculating in parts. What a run has reported and told before is put in front of what comes,
and decides nothing. -/

namespace CarbonLedger

def Run.result (r : Run) : Ledger × Except RunError Report := (r.ledger, r.outcome)

def Run.andThen (first second : Run) : Ledger × Except RunError Report :=
  match first.outcome with
  | .ok report => (second.ledger, second.outcome.map (report ++ ·))
  | .error e => (first.ledger, .error e)

def Run.untimed (r : Run) : Run :=
  { r with ledger := r.ledger.untimed, outcome := r.outcome.map Report.untimed }

namespace Report

theorem empty_append (r : Report) : empty ++ r = r := by
  simp only [append_def, empty, List.nil_append]

theorem append_empty (r : Report) : r ++ empty = r := by
  simp only [append_def, empty, List.append_nil]

theorem append_assoc (r s t : Report) : r ++ s ++ t = r ++ (s ++ t) := by
  simp only [append_def, List.append_assoc]

end Report

namespace Ledger

/-- The chunks of a list make up the list, whatever their size. -/
theorem flatten_chunks {α : Type} (n : Nat) (l : List α) : (chunks n l).flatten = l := by
  induction l using chunks.induct n with
  | case1 => rw [chunks, List.flatten_nil]
  | case2 a r ih => rw [chunks, List.flatten_cons, ih, List.cons_append, List.take_append_drop]

def start (l : Ledger) (subjects : Nat) : State :=
  ⟨l, .empty, [.total subjects, .message "Recalculating emissions"], none⟩

def State.run (s : State) : Run :=
  match s.error with
  | some e => ⟨s.ledger, s.progress, .error e⟩
  | none => ⟨s.ledger, s.progress ++ [.finish s.report.summary], .ok s.report⟩

/-- A run in chunks is a run of steps, one subject after the other. -/
theorem recalculate_eq (l : Ledger) (b : Basis) (options : RunOptions) (computedAt : Instant)
    (subjects : List Int64) :
    l.recalculate b options computedAt subjects =
      (subjects.foldl (step b options.requireComplete computedAt)
        (l.start subjects.length)).run := by
  have hchunks : l.recalculate b options computedAt subjects =
      ((chunks (options.chunkSize - 1) subjects).foldl
        (fun s chunk => chunk.foldl (step b options.requireComplete computedAt) s)
        (l.start subjects.length)).run := rfl
  rw [hchunks, ← List.foldl_flatten, flatten_chunks]

def State.after (s : State) (report : Report) (progress : List Progress) : State :=
  { s with report := report ++ s.report, progress := progress ++ s.progress }

section Steps
variable {b : Basis} {requireComplete : Bool} {computedAt : Instant}

theorem step_after (s : State) (report : Report) (progress : List Progress) (subject : Int64) :
    step b requireComplete computedAt (s.after report progress) subject =
      (step b requireComplete computedAt s subject).after report progress := by
  have herror : (s.after report progress).error = s.error := rfl
  have hledger : (s.after report progress).ledger = s.ledger := rfl
  rw [step, step, herror, hledger]
  -- A step adds behind what is there, so it does not matter what stands before.
  cases s.error with
  | some e => rfl
  | none =>
    cases s.ledger.recalculateOne b requireComplete computedAt subject with
    | error e => rfl
    | ok p => simp only [State.after, Report.append_assoc, List.append_assoc]

/-- Steps add to the report before them and do not look at it. -/
theorem steps_after (s : State) (report : Report) (progress : List Progress)
    (subjects : List Int64) :
    subjects.foldl (step b requireComplete computedAt) (s.after report progress) =
      (subjects.foldl (step b requireComplete computedAt) s).after report progress :=
  List.foldl_hom (fun s : State => s.after report progress) fun s subject =>
    step_after s report progress subject

/-- An error stops a run for good. -/
theorem steps_of_error {s : State} {e : RunError} (h : s.error = some e) (subjects : List Int64) :
    subjects.foldl (step b requireComplete computedAt) s = s := by
  induction subjects with
  | nil => rfl
  | cons x r ih =>
    have hstep : step b requireComplete computedAt s x = s := by
      rw [step, h]
    rw [List.foldl_cons, hstep, ih]

theorem steps_untimed (s : State) (subjects : List Int64) :
    (subjects.foldl (step b requireComplete computedAt) s).untimed =
      subjects.foldl (step b requireComplete default) s.untimed :=
  (List.foldl_hom State.untimed fun s subject =>
    (step_untimed b requireComplete computedAt s subject).symm).symm

end Steps

theorem recalculate_untimed (l : Ledger) (b : Basis) (options : RunOptions) (computedAt : Instant)
    (subjects : List Int64) :
    (l.recalculate b options computedAt subjects).untimed =
      l.untimed.recalculate b options default subjects := by
  have hrun (s : State) : s.run.untimed = s.untimed.run := by
    have herror : s.untimed.error = s.error := rfl
    rw [State.run, State.run, herror]
    cases s.error with
    | some e => rfl
    | none =>
      have hsummary : s.untimed.report.summary = s.report.summary := Report.summary_untimed _
      simp only [hsummary]
      rfl
  rw [recalculate_eq, recalculate_eq, hrun, steps_untimed]
  rfl

/-- Runs of the same subjects at two times differ in times alone. -/
theorem untimed_recalculate_eq (l : Ledger) (b : Basis) (options : RunOptions) (s t : Instant)
    (subjects : List Int64) :
    (l.recalculate b options s subjects).untimed =
      (l.recalculate b options t subjects).untimed := by
  rw [recalculate_untimed, recalculate_untimed]

theorem ledger_at_time (l : Ledger) (b : Basis) (options : RunOptions) (s t : Instant)
    (subjects : List Int64) :
    (l.recalculate b options t subjects).ledger.untimed =
      (l.recalculate b options s subjects).ledger.untimed :=
  congrArg Run.ledger (untimed_recalculate_eq l b options t s subjects)

theorem outcome_at_time {l : Ledger} {b : Basis} {options : RunOptions} {s : Instant}
    {subjects : List Int64} {report : Report}
    (h : (l.recalculate b options s subjects).outcome = .ok report) (t : Instant) :
    ∃ report', (l.recalculate b options t subjects).outcome = .ok report' ∧
      report'.untimed = report.untimed := by
  have hsame : (l.recalculate b options t subjects).outcome.map Report.untimed =
      (l.recalculate b options s subjects).outcome.map Report.untimed :=
    congrArg Run.outcome (untimed_recalculate_eq l b options t s subjects)
  rw [h] at hsame
  cases htime : (l.recalculate b options t subjects).outcome with
  | ok report' =>
    rw [htime] at hsame
    exact ⟨report', rfl, Except.ok.inj hsame⟩
  | error e =>
    rw [htime] at hsame
    cases hsame

/-- The size of the chunks changes nothing. -/
theorem recalculate_chunkSize (l : Ledger) (b : Basis) (requireComplete : Bool) (m n : Nat)
    (computedAt : Instant) (subjects : List Int64) :
    l.recalculate b ⟨m, requireComplete⟩ computedAt subjects =
      l.recalculate b ⟨n, requireComplete⟩ computedAt subjects := by
  rw [recalculate_eq, recalculate_eq]

def State.result (s : State) : Ledger × Except RunError Report :=
  (s.ledger, s.error.elim (.ok s.report) .error)

theorem result_run (s : State) : s.run.result = s.result := by
  rw [State.run, State.result]
  cases s.error <;> rfl

theorem result_after (s : State) (report : Report) (progress : List Progress) :
    (s.after report progress).result = (s.result.1, s.result.2.map (report ++ ·)) := by
  have herror : (s.after report progress).error = s.error := rfl
  rw [State.result, State.result, herror]
  cases s.error <;> rfl

def fresh (l : Ledger) : State := ⟨l, .empty, [], none⟩

theorem result_recalculate (l : Ledger) (b : Basis) (options : RunOptions) (computedAt : Instant)
    (subjects : List Int64) :
    (l.recalculate b options computedAt subjects).result =
      (subjects.foldl (step b options.requireComplete computedAt) l.fresh).result := by
  have hstart : l.start subjects.length = l.fresh.after .empty
      [.total subjects.length, .message "Recalculating emissions"] := rfl
  have hempty (x : Except RunError Report) : x.map (Report.empty ++ ·) = x := by
    cases x with
    | ok r => exact congrArg Except.ok r.empty_append
    | error e => rfl
  rw [recalculate_eq, result_run, hstart, steps_after, result_after, hempty]

/-- A list of subjects may be cut anywhere: the second run starts from the ledger that the first one
leaves, and what the two report is put together. -/
theorem recalculate_append (l : Ledger) (b : Basis) (options : RunOptions) (computedAt : Instant)
    (xs ys : List Int64) :
    (l.recalculate b options computedAt (xs ++ ys)).result =
      (l.recalculate b options computedAt xs).andThen
        ((l.recalculate b options computedAt xs).ledger.recalculate b options computedAt ys) := by
  have hwhole := result_recalculate l b options computedAt (xs ++ ys)
  have hfirst := result_recalculate l b options computedAt xs
  rw [List.foldl_append] at hwhole
  generalize xs.foldl (step b options.requireComplete computedAt) l.fresh = s at hwhole hfirst
  generalize l.recalculate b options computedAt xs = first at hfirst ⊢
  have hledger : first.ledger = s.ledger := congrArg Prod.fst hfirst
  have houtcome : first.outcome = s.error.elim (.ok s.report) .error := congrArg Prod.snd hfirst
  rw [hwhole, hledger, Run.andThen, houtcome, hledger]
  cases herror : s.error with
  | some e =>
    rw [steps_of_error herror, State.result, herror]
    rfl
  | none =>
    have hs : s = s.ledger.fresh.after s.report s.progress := by
      obtain ⟨ledger, report, progress, error⟩ := s
      subst herror
      simp only [State.after, fresh, Report.append_empty, List.append_nil]
    calc (ys.foldl (step b options.requireComplete computedAt) s).result
      _ = ((ys.foldl (step b options.requireComplete computedAt) s.ledger.fresh).after
            s.report s.progress).result := by rw [← steps_after, ← hs]
      _ = _ := by
        rw [result_after, ← result_recalculate s.ledger b options computedAt ys]
        rfl

/-- Neither chunks nor parts can be told from what a run does. At one time, runs in chunks of any
size are the same run, and a run in two parts leaves and answers what the run of the whole does. At
different times all of them differ in times alone. -/
theorem recalculate_in_parts (l : Ledger) (b : Basis) (requireComplete : Bool) (m n p : Nat)
    (xs ys : List Int64) :
    let run (l : Ledger) (chunkSize : Nat) := l.recalculate b ⟨chunkSize, requireComplete⟩
    (∀ t, run l m t xs = run l n t xs) ∧
    (∀ t, (run l m t (xs ++ ys)).result =
      (run l n t xs).andThen (run (run l n t xs).ledger p t ys)) ∧
    ∀ s t u, (run l m s xs).untimed = (run l n t xs).untimed ∧
      (run l m s (xs ++ ys)).untimed.result =
        (run l n t xs).untimed.andThen (run (run l n t xs).ledger p u ys).untimed := by
  intro run
  have hchunks (l : Ledger) (i j : Nat) (t : Instant) (subjects : List Int64) :
      run l i t subjects = run l j t subjects :=
    recalculate_chunkSize l b requireComplete i j t subjects
  have huntimed (l : Ledger) (i : Nat) (t : Instant) (subjects : List Int64) :
      (run l i t subjects).untimed = run l.untimed m default subjects := by
    rw [← hchunks l.untimed i m]
    exact recalculate_untimed l b ⟨i, requireComplete⟩ t subjects
  refine ⟨fun t => hchunks l m n t xs, ?_, ?_⟩
  · intro t
    rw [hchunks l n m, hchunks _ p m]
    exact recalculate_append l b ⟨m, requireComplete⟩ t xs ys
  · intro s t u
    have hsecond : (run (run l n t xs).ledger p u ys).untimed =
        run (run l.untimed m default xs).ledger m default ys := by
      -- The ledger that the first run leaves is the one of the run without times, but for times.
      rw [huntimed, ← huntimed l n t xs]
      rfl
    rw [huntimed l m s xs, huntimed l n t xs, huntimed l m s (xs ++ ys), hsecond]
    exact ⟨rfl, recalculate_append l.untimed b ⟨m, requireComplete⟩ default xs ys⟩

end Ledger

end CarbonLedger
