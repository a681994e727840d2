import CarbonLedger.Proofs.KeptRows

namespace CarbonLedger
namespace Ledger

section Failures
variable {l : Ledger} {b : Basis} {options : RunOptions} {computedAt : Instant}
  {subjects before : List Int64} {subject : Int64} {e : RunError}

/-- A run that fails has a subject that fails. -/
theorem exists_fails_of_outcome
    (h : (l.recalculate b options computedAt subjects).outcome = .error e) :
    ∃ x ∈ subjects, l.Fails b options.requireComplete computedAt x e := by
  obtain ⟨x, hx, hfails⟩ := List.exists_of_findSome?_eq_some (outcome_eq_error_iff.mp h)
  exact ⟨x, hx, failure?_eq_some_iff.mp hfails⟩

/-- A run with no failing subject succeeds. -/
theorem outcome_of_not_fails
    (h : ∀ x ∈ subjects, ∀ f, ¬ l.Fails b options.requireComplete computedAt x f) :
    ∃ report, (l.recalculate b options computedAt subjects).outcome = .ok report := by
  cases houtcome : (l.recalculate b options computedAt subjects).outcome with
  | ok report => exact ⟨report, rfl⟩
  | error f =>
    obtain ⟨x, hx, hfails⟩ := exists_fails_of_outcome houtcome
    exact absurd hfails (h x hx f)

theorem not_fails_of_outcome {report : Report}
    (h : (l.recalculate b options computedAt subjects).outcome = .ok report) :
    ∀ x ∈ subjects, ∀ f, ¬ l.Fails b options.requireComplete computedAt x f := by
  apply not_fails_of_findSome?
  apply Option.eq_none_iff_forall_ne_some.mpr
  intro f hf
  have herror : (l.recalculate b options computedAt subjects).outcome = .error f :=
    outcome_eq_error_iff.mpr hf
  rw [h] at herror
  cases herror

/-- A run ends at the first subject that fails, with its error and the rows of those before. -/
theorem result_of_fails
    (hbefore : ∀ x ∈ before, ∀ f, ¬ l.Fails b options.requireComplete computedAt x f)
    (h : l.Fails b options.requireComplete computedAt subject e) (rest : List Int64) :
    (l.recalculate b options computedAt (before ++ subject :: rest)).result =
      ((l.recalculate b options computedAt before).ledger, .error e) := by
  obtain ⟨report, hreport⟩ := outcome_of_not_fails hbefore
  -- The subjects before have left the activities alone, so the subject still stops the run.
  have hactivities := activities_recalculate l b options computedAt before
  have hone := recalculateOne_eq_error_iff.mpr (h.congr hactivities.symm)
  rw [recalculate_append, Run.andThen, hreport]
  simp only [ledger_cons, outcome_cons, hone, Except.map]

/-- A run that succeeds at one time succeeds at any, with the same rows but for their times. -/
theorem recalculate_at_time {report : Report}
    (h : (l.recalculate b options computedAt subjects).outcome = .ok report) (time : Instant) :
    (l.recalculate b options time subjects).ledger.untimed =
      (l.recalculate b options computedAt subjects).ledger.untimed ∧
    ∃ report, (l.recalculate b options time subjects).outcome = .ok report := by
  obtain ⟨report', hreport', _⟩ := outcome_at_time h time
  exact ⟨ledger_at_time l b options computedAt time subjects, report', hreport'⟩

/-- A run fails exactly if one of its subjects stops runs: its kind has no formula, it is a trip in
an unknown mode or between known places one of which is off the globe, or it is incomplete where
that is not allowed. The error is that of the first such subject. The ledger is then the one that a
run of the subjects before it leaves, and that run succeeds; made at any other time, it leaves the
same but for times. The rows of the subject that failed, and of all others that did not come before
it, are as they were. -/
theorem run_stops_at_first_failure (hl : l.Reached) (b : Basis) (options : RunOptions)
    (computedAt : Instant) (subjects : List Int64) :
    let run := l.recalculate b options
    let fails := l.Fails b options.requireComplete computedAt
    ((∃ e, (run computedAt subjects).outcome = .error e) ↔ ∃ x ∈ subjects, ∃ e, fails x e) ∧
    ∀ before subject rest e, subjects = before ++ subject :: rest →
      (∀ x ∈ before, ∀ f, ¬ fails x f) → fails subject e →
      (run computedAt subjects).outcome = .error e ∧
      (run computedAt subjects).ledger = (run computedAt before).ledger ∧
      (∀ time, (run time before).ledger.untimed = (run computedAt subjects).ledger.untimed ∧
        ∃ report, (run time before).outcome = .ok report) ∧
      subject ∉ before ∧
      ∀ x ∉ before, (run computedAt subjects).ledger.history x = l.history x := by
  intro run fails
  constructor
  · constructor
    · rintro ⟨e, he⟩
      obtain ⟨x, hx, hfails⟩ := exists_fails_of_outcome he
      exact ⟨x, hx, e, hfails⟩
    · rintro ⟨x, hx, e, hfails⟩
      cases houtcome : (run computedAt subjects).outcome with
      | error f => exact ⟨f, rfl⟩
      | ok report => exact absurd hfails (not_fails_of_outcome houtcome x hx e)
  · rintro before subject rest e rfl hbefore h
    have hresult := result_of_fails hbefore h rest
    have houtcome : (run computedAt (before ++ subject :: rest)).outcome = .error e :=
      congrArg Prod.snd hresult
    have hledger : (run computedAt (before ++ subject :: rest)).ledger =
        (run computedAt before).ledger := congrArg Prod.fst hresult
    obtain ⟨report, hreport⟩ := outcome_of_not_fails hbefore
    refine ⟨houtcome, hledger, ?_, ?_, ?_⟩
    · intro time
      rw [hledger]
      exact recalculate_at_time hreport time
    · intro hmem
      exact hbefore subject hmem e h
    · intro x hx
      rw [hledger]
      exact history_recalculate_of_not_mem hl hx

end Failures

def solarPanel : StoredActivity := ⟨2, "solar", .null⟩

/-- A record of no known kind stops the run between two cloud spends. -/
theorem run_stops_at_solar_panel :
    let l := ((empty.record (cloudSpend 1 "aws")).store solarPanel).record (cloudSpend 3 "aws")
    let run := l.recalculate awsRates .default
    l.Fails awsRates false ⟨9, 0⟩ 2 (.noFormula 2 "solar") ∧
      (run ⟨9, 0⟩ [1, 2, 3]).outcome = .error (.noFormula 2 "solar") ∧
      (run ⟨9, 0⟩ [1, 2, 3]).ledger = (run ⟨9, 0⟩ [1]).ledger ∧
      ((run ⟨9, 0⟩ [1]).ledger.history 1).map (·.kg) = [some 40.0] ∧
      (run ⟨9, 0⟩ [1, 2, 3]).ledger.history 3 = [] := by
  intro l run
  have hl : l.Reached := .store _ (.store _ (.store _ .empty))
  have hfails : l.Fails awsRates false ⟨9, 0⟩ 2 (.noFormula 2 "solar") := by
    have hstored : l.activity? 2 = some solarPanel := rfl
    have hkind : ∀ k : RecordKind, Cases.name k ≠ "solar" := by
      intro k
      cases k <;> decide
    exact .noFormula hstored hkind
  have hbefore : ∀ x ∈ [1], ∀ f, ¬ l.Fails awsRates false ⟨9, 0⟩ x f := by
    intro x hx
    rw [List.mem_singleton.mp hx]
    exact failure?_eq_none_iff.mp rfl
  obtain ⟨houtcome, hledger, _, _, hrows⟩ :=
    (run_stops_at_first_failure hl awsRates .default ⟨9, 0⟩ [1, 2, 3]).2 [1] 2 [3] _ rfl
      hbefore hfails
  refine ⟨hfails, houtcome, hledger, ?_, hrows 3 (by decide)⟩
  have hone : run ⟨9, 0⟩ [1] = _ := recalculate_eq l awsRates .default ⟨9, 0⟩ [1]
  rw [hone]
  rfl

end Ledger

end CarbonLedger
