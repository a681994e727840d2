import CarbonLedger.Proofs.FailedRuns

namespace CarbonLedger

namespace Report

def join (reports : List Report) : Report where
  committed := reports.flatMap (·.committed)
  incomplete := reports.flatMap (·.incomplete)
  missing := reports.flatMap (·.missing)
  invalid := reports.flatMap (·.invalid)
  ambiguities := reports.flatMap (·.ambiguities)

theorem join_cons (r : Report) (rs : List Report) : join (r :: rs) = r ++ join rs := rfl

def places (r : Report) : Nat :=
  [r.committed.isEmpty, r.incomplete.isEmpty, r.missing.isEmpty, r.invalid.isEmpty].count false

end Report

/-- What is reported of a subject that evaluates: all of its emissions, as committed if they are
complete. -/
def Evaluation.account (e : Evaluation) (subject : Int64) : Report :=
  let ambiguities := e.ambiguities.map (subject, ·)
  if e.emissions.all Emission.isComplete then
    ⟨e.emissions.map Emission.asCurrent, [], [], [], ambiguities⟩
  else ⟨[], e.emissions, [], [], ambiguities⟩

namespace Ledger

def account (l : Ledger) (b : Basis) (computedAt : Instant) (subject : Int64) : Report :=
  match l.activity? subject with
  | none => { Report.empty with missing := [subject] }
  | some stored =>
    match stored.decode with
    | .error e => { Report.empty with invalid := [⟨subject, e.message⟩] }
    | .ok record =>
      match b.evaluate record computedAt with
      | .error _ => .empty
      | .ok e => e.account subject

def writes (l : Ledger) (b : Basis) (computedAt : Instant) (subjects : List Int64) :
    List (List Emission) :=
  subjects.map fun x => (l.account b computedAt x).committed

def replaceAll (l : Ledger) (writes : List (List Emission)) : Ledger := writes.foldl replace l

/-- The rows that writes add. A row is current unless a later write is for its subject. -/
def added : List (List Emission) → List Emission
  | [] => []
  | es :: later =>
    es.map (fun m => { m with
      isCurrent := !(later.flatten.map (·.subject)).contains m.subject }) ++ added later

section Writes

theorem retire_nil (row : Emission) : retire [] row = row := by
  simp [retire]

theorem retire_retire (xs ys : List Int64) (row : Emission) :
    retire ys (retire xs row) = retire (xs ++ ys) row := by
  cases hcurrent : row.isCurrent with
  | false => simp [retire, hcurrent]
  | true =>
    -- A row that the first list makes history is left alone by the second.
    by_cases hx : row.subject ∈ xs
    · simp [retire, hcurrent, hx, Emission.asHistory]
    · simp [retire, hcurrent, hx]

theorem retire_asCurrent (subjects : List Int64) (m : Emission) :
    retire subjects m.asCurrent = { m with isCurrent := !subjects.contains m.subject } := by
  have hretire : retire subjects m.asCurrent =
      if subjects.contains m.subject then m.asCurrent.asHistory else m.asCurrent := rfl
  rw [hretire]
  cases subjects.contains m.subject <;> rfl

theorem replace_nil (l : Ledger) : l.replace [] = l := by
  have hrows : l.rows.map (retire []) = l.rows := List.map_id'' retire_nil l.rows
  rw [replace, List.map_nil, hrows, List.map_nil, List.append_nil]

/-- It does not matter whether emissions are marked as current before they are put in. -/
theorem replace_asCurrent (l : Ledger) (es : List Emission) :
    l.replace (es.map Emission.asCurrent) = l.replace es := by
  rw [replace, replace, List.map_map, List.map_map]
  rfl

/-- Writes add the same rows to every ledger. The rows that were there before become history if one
of the writes is for their subject. -/
theorem rows_replaceAll (l : Ledger) (writes : List (List Emission)) :
    (l.replaceAll writes).rows =
      l.rows.map (retire (writes.flatten.map (·.subject))) ++ added writes := by
  -- From the first write on: it retires the rows of `l`, and the later ones retire its rows too.
  induction writes generalizing l with
  | nil =>
    rw [List.flatten_nil, List.map_nil, List.map_id'' retire_nil, added, List.append_nil]
    rfl
  | cons es later ih =>
    have hold : (l.rows.map (retire (es.map (·.subject)))).map
          (retire (later.flatten.map (·.subject))) =
        l.rows.map (retire ((es :: later).flatten.map (·.subject))) := by
      rw [List.flatten_cons, List.map_append, List.map_map]
      exact List.map_congr_left fun row _ => retire_retire _ _ row
    have hnew : (es.map Emission.asCurrent).map (retire (later.flatten.map (·.subject))) ++
        added later = added (es :: later) := by
      rw [added, List.map_map]
      congr 1
      exact List.map_congr_left fun m _ => retire_asCurrent _ m
    calc (l.replaceAll (es :: later)).rows
      _ = ((l.replace es).replaceAll later).rows := rfl
      _ = (l.replace es).rows.map (retire (later.flatten.map (·.subject))) ++ added later := ih _
      _ = l.rows.map (retire ((es :: later).flatten.map (·.subject))) ++ added (es :: later) := by
        rw [replace, List.map_append, hold, List.append_assoc, hnew]

/-- Flags aside, the rows that are added are the ones that were written. -/
theorem added_asHistory (writes : List (List Emission)) :
    (added writes).map Emission.asHistory = writes.flatten.map Emission.asHistory := by
  induction writes with
  | nil => rfl
  | cons es later ih =>
    rw [added, List.map_append, List.map_map, ih, List.flatten_cons, List.map_append]
    rfl

end Writes

section Accounts
variable {l l' : Ledger} {b : Basis} {requireComplete : Bool} {computedAt : Instant}
  {subject : Int64}

theorem account_congr (h : l'.activities = l.activities) (subject : Int64) :
    l'.account b computedAt subject = l.account b computedAt subject := by
  rw [account, account, activity?, activity?, h]

theorem writes_congr (h : l'.activities = l.activities) (subjects : List Int64) :
    l'.writes b computedAt subjects = l.writes b computedAt subjects := by
  simp only [writes, account_congr h]

theorem writes_append (l : Ledger) (b : Basis) (computedAt : Instant) (xs ys : List Int64) :
    l.writes b computedAt (xs ++ ys) = l.writes b computedAt xs ++ l.writes b computedAt ys :=
  List.map_append

theorem flatten_writes (l : Ledger) (b : Basis) (computedAt : Instant) (subjects : List Int64) :
    (l.writes b computedAt subjects).flatten =
      (Report.join (subjects.map (l.account b computedAt))).committed := by
  rw [Report.join, List.flatMap_map, List.flatMap_def, writes]

theorem account_of_decodes {r : ActivityRecord} {e : Evaluation} (h : l.Decodes subject r)
    (he : b.evaluate r computedAt = .ok e) :
    l.account b computedAt subject = e.account subject := by
  obtain ⟨stored, hstored, hdecode⟩ := h
  simp only [account, hstored, hdecode, he]

/-- A run commits what it reports as committed, and reports the account of the subject. -/
theorem recalculateOne_eq_ok {report : Report}
    (h : l.recalculateOne b requireComplete computedAt subject = .ok (l', report)) :
    report = l.account b computedAt subject ∧ l' = l.replace report.committed := by
  have htakes := takes l b requireComplete computedAt subject
  rw [h] at htakes
  cases htakes with
  | missing hnone => exact ⟨by simp only [account, hnone], (replace_nil l).symm⟩
  | invalid hstored hdecode =>
    exact ⟨by simp only [account, hstored, hdecode], (replace_nil l).symm⟩
  | @incomplete r e hr he hgaps =>
    have hnot : e.emissions.all Emission.isComplete = false := by
      obtain ⟨m, hm⟩ := List.exists_mem_of_ne_nil _ (Basis.emissions_ne_nil he)
      exact List.all_eq_false.mpr ⟨m, hm, by simp [hgaps m hm]⟩
    rw [account_of_decodes hr he, Evaluation.account, hnot]
    exact ⟨rfl, (replace_nil l).symm⟩
  | @complete r e hr he hcomplete =>
    have hall : e.emissions.all Emission.isComplete = true := List.all_eq_true.mpr hcomplete
    rw [account_of_decodes hr he, Evaluation.account, hall]
    exact ⟨rfl, (replace_asCurrent l e.emissions).symm⟩

/-- A subject that does not fail adds its account to the report and its rows to the ledger. -/
theorem recalculateOne_of_not_fails
    (h : ∀ e, ¬ l.Fails b requireComplete computedAt subject e) :
    l.recalculateOne b requireComplete computedAt subject =
      .ok (l.replace (l.account b computedAt subject).committed,
        l.account b computedAt subject) := by
  cases hone : l.recalculateOne b requireComplete computedAt subject with
  | error e => exact absurd (recalculateOne_eq_error_iff.mp hone) (h e)
  | ok p =>
    obtain ⟨hreport, hledger⟩ := recalculateOne_eq_ok hone
    rw [← hreport, ← hledger]

/-- A subject that does not fail stands in one place of the report. -/
theorem places_account (h : ∀ e, ¬ l.Fails b requireComplete computedAt subject e) :
    (l.account b computedAt subject).places = 1 := by
  have htakes := takes l b requireComplete computedAt subject
  rw [recalculateOne_of_not_fails h] at htakes
  -- An evaluation has emissions, so a subject that evaluates is told of in one place.
  have hone {es : List Emission} (hne : es ≠ []) : es.isEmpty = false :=
    List.isEmpty_eq_false_iff.mpr hne
  generalize l.account b computedAt subject = report at htakes
  generalize l.replace report.committed = after at htakes
  cases htakes with
  | missing _ => rfl
  | invalid _ _ => rfl
  | incomplete _ he _ => simp [Report.places, hone (Basis.emissions_ne_nil he)]
  | complete _ he _ => simp [Report.places, hone (Basis.emissions_ne_nil he)]

end Accounts

section Runs
variable {l : Ledger} {b : Basis} {options : RunOptions} {computedAt : Instant}
  {subjects : List Int64} {report : Report}

/-- Any run, whether it succeeds or fails, commits for the subjects that it handles. -/
theorem ledger_eq_replaceAll (l : Ledger) (b : Basis) (options : RunOptions)
    (computedAt : Instant) (subjects : List Int64) :
    (l.recalculate b options computedAt subjects).ledger =
      l.replaceAll (l.writes b computedAt
        (l.handled b options.requireComplete computedAt subjects)) := by
  apply ledger_recalculate fun done l' => l' = l.replaceAll (l.writes b computedAt done)
  · intro done x l₁ l₂ r hdone hl₁ hone
    obtain ⟨rfl, hl₂⟩ := recalculateOne_eq_ok hone
    rw [hl₂, account_congr hl₁, hdone, writes_append, replaceAll, replaceAll, List.foldl_append]
    rfl
  · rfl

/-- A run without failures reports the accounts of its subjects, joined in order. -/
theorem outcome_eq_join
    (h : ∀ x ∈ subjects, ∀ e, ¬ l.Fails b options.requireComplete computedAt x e) :
    (l.recalculate b options computedAt subjects).outcome =
      .ok (.join (subjects.map (l.account b computedAt))) := by
  induction subjects generalizing l with
  | nil => exact outcome_nil
  | cons x rest ih =>
    obtain ⟨hx, hrest⟩ := List.forall_mem_cons.mp h
    have hone := recalculateOne_of_not_fails hx
    have hsame := activities_recalculateOne hone
    have hafter := ih fun y hy e hf => hrest y hy e (hf.congr hsame)
    have haccounts : rest.map ((l.replace (l.account b computedAt x).committed).account b
        computedAt) = rest.map (l.account b computedAt) :=
      List.map_congr_left fun y _ => account_congr hsame y
    rw [outcome_cons, hone]
    simp only
    rw [hafter, haccounts, List.map_cons, Report.join_cons]
    rfl

theorem outcome_eq_ok_iff :
    (l.recalculate b options computedAt subjects).outcome = .ok report ↔
      (∀ x ∈ subjects, ∀ e, ¬ l.Fails b options.requireComplete computedAt x e) ∧
        report = .join (subjects.map (l.account b computedAt)) := by
  constructor
  · intro h
    have hgoes := not_fails_of_outcome h
    rw [outcome_eq_join hgoes, Except.ok.injEq] at h
    exact ⟨hgoes, h.symm⟩
  · rintro ⟨hgoes, rfl⟩
    exact outcome_eq_join hgoes

theorem handled_of_not_fails
    (h : ∀ x ∈ subjects, ∀ e, ¬ l.Fails b options.requireComplete computedAt x e) :
    l.handled b options.requireComplete computedAt subjects = subjects := by
  have hwhole : l.handled b options.requireComplete computedAt (subjects ++ []) = subjects ++ [] :=
    handled_append h
  rwa [List.append_nil] at hwhole

theorem ledger_of_outcome
    (h : (l.recalculate b options computedAt subjects).outcome = .ok report) :
    (l.recalculate b options computedAt subjects).ledger =
        l.replaceAll (l.writes b computedAt subjects) ∧
      (l.writes b computedAt subjects).flatten = report.committed := by
  obtain ⟨hgoes, rfl⟩ := outcome_eq_ok_iff.mp h
  constructor
  · rw [ledger_eq_replaceAll, handled_of_not_fails hgoes]
  · exact flatten_writes l b computedAt subjects

/-- A run that succeeds accounts for every subject that it was asked for, as often as it was asked
for it. Its report is made of the accounts of the subjects in their order and of nothing else. Each
of them tells of the subject in one place: as missing, as invalid, or by all emissions of its
evaluation, committed or incomplete. The rows that the run adds are the ones that it reports as
committed; of these a row is not current if it was written again later. All other rows stay, and
those of subjects that were written become history. -/
theorem run_accounts_for_subjects (l : Ledger) (b : Basis) (options : RunOptions)
    (computedAt : Instant) {subjects : List Int64} {report : Report}
    (h : (l.recalculate b options computedAt subjects).outcome = .ok report) :
    let accounts := subjects.map (l.account b computedAt)
    let rows := added (accounts.map (·.committed))
    report = .join accounts ∧ (∀ r ∈ accounts, r.places = 1) ∧
    (l.recalculate b options computedAt subjects).ledger.rows =
      l.rows.map (retire (report.committed.map (·.subject))) ++ rows ∧
    rows.map Emission.asHistory = report.committed.map Emission.asHistory := by
  intro accounts rows
  obtain ⟨hgoes, hreport⟩ := outcome_eq_ok_iff.mp h
  obtain ⟨hledger, hcommitted⟩ := ledger_of_outcome h
  have hrows : rows = added (l.writes b computedAt subjects) := by
    simp only [rows, accounts, List.map_map]
    rfl
  refine ⟨hreport, ?_, ?_, ?_⟩
  · intro r hr
    obtain ⟨x, hx, rfl⟩ := List.mem_map.mp hr
    exact places_account (hgoes x hx)
  · rw [hledger, rows_replaceAll, hcommitted, hrows]
  · rw [hrows, added_asHistory, hcommitted]

end Runs

def unsettledClouds : Ledger := movedToClouds.store ⟨2, "headcount", .null⟩

/-- A run over a rated cloud spend, an unrated, a missing and an invalid subject, and the first
again. -/
theorem run_accounts_for_clouds :
    let l := unsettledClouds
    let run := l.recalculate awsRates .default ⟨9, 0⟩ [7, 8, 9, 2, 7]
    ∃ report, run.outcome = .ok report ∧
      report.committed.map (·.subject) = [7, 7] ∧ report.incomplete.map (·.subject) = [8] ∧
      report.missing = [9] ∧ report.invalid.map (·.subject) = [2] ∧
      run.ledger.rows.map (fun m => (m.subject, m.kg, m.isCurrent)) =
        [(7, some 12.0, false), (8, some 12.0, true), (7, some 40.0, false),
          (7, some 40.0, true)] := by
  intro l run
  have hgoes : ∀ x ∈ [7, 8, 9, 2, 7], ∀ e, ¬ l.Fails awsRates false ⟨9, 0⟩ x e :=
    not_fails_of_findSome? rfl
  have houtcome : run.outcome = .ok _ := outcome_eq_join hgoes
  obtain ⟨_, _, hrows, _⟩ := run_accounts_for_subjects l awsRates .default ⟨9, 0⟩ houtcome
  exact ⟨_, houtcome, rfl, rfl, rfl, rfl, (congrArg (List.map _) hrows).trans rfl⟩

end Ledger

end CarbonLedger
