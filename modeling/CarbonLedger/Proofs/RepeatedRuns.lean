import CarbonLedger.Proofs.SubjectReports

namespace CarbonLedger
namespace Ledger

section Writes
variable {l : Ledger} {writes : List (List Emission)} {subject : Int64}

theorem history_replaceAll (l : Ledger) (writes : List (List Emission)) (subject : Int64) :
    (l.replaceAll writes).history subject =
      (l.history subject).map (retire (writes.flatten.map (·.subject))) ++
        (added writes).filter fun m => m.subject == subject := by
  have hsubject : (fun m => m.subject == subject) ∘ retire (writes.flatten.map (·.subject)) =
      fun m => m.subject == subject := by
    funext m
    simp only [Function.comp_apply, subject_retire]
  rw [history, rows_replaceAll, List.filter_append, List.filter_map, hsubject, history]

theorem filter_added_asHistory (writes : List (List Emission)) (subject : Int64) :
    ((added writes).filter fun m => m.subject == subject).map Emission.asHistory =
      (writes.flatten.filter fun m => m.subject == subject).map Emission.asHistory := by
  have h := congrArg (List.filter fun m => m.subject == subject) (added_asHistory writes)
  rwa [List.filter_map, List.filter_map] at h

/-- Subjects without a write keep their rows. -/
theorem history_replaceAll_of_not_mem (h : subject ∉ writes.flatten.map (·.subject)) :
    (l.replaceAll writes).history subject = l.history subject := by
  have hold : ∀ row ∈ l.history subject, retire (writes.flatten.map (·.subject)) row = id row := by
    intro row hrow
    have hsubject : row.subject = subject := by simpa using (List.mem_filter.mp hrow).2
    exact retire_of_not_mem (hsubject ▸ h)
  have hnew : (added writes).filter (fun m => m.subject == subject) = [] := by
    have hnone : writes.flatten.filter (fun m => m.subject == subject) = [] := by
      apply List.filter_eq_nil_iff.mpr
      intro m hm hsubject
      exact h (List.mem_map.mpr ⟨m, hm, by simpa using hsubject⟩)
    have hrows := filter_added_asHistory writes subject
    rw [hnone, List.map_nil, List.map_eq_nil_iff] at hrows
    exact hrows
  rw [history_replaceAll, List.map_congr_left hold, List.map_id, hnew, List.append_nil]

theorem isCurrent_retire (subjects : List Int64) (row : Emission) :
    (retire subjects row).isCurrent = (row.isCurrent && !subjects.contains row.subject) := by
  rw [retire]
  cases hcurrent : row.isCurrent <;> cases subjects.contains row.subject <;>
    simp [hcurrent, Emission.asHistory]

/-- Of a subject that is written, the rows that were there before are not current any more. -/
theorem current_replaceAll_of_mem (h : subject ∈ writes.flatten.map (·.subject)) :
    (l.replaceAll writes).current subject = (empty.replaceAll writes).current subject := by
  -- The rows that are added do not depend on the ledger, so the old ones have to fall away.
  have hold : ((l.history subject).map (retire (writes.flatten.map (·.subject)))).filter
      Emission.isCurrent = [] := by
    apply List.filter_eq_nil_iff.mpr
    intro m hm
    obtain ⟨row, hrow, rfl⟩ := List.mem_map.mp hm
    have hsubject : row.subject = subject := by simpa using (List.mem_filter.mp hrow).2
    have hwritten : (writes.flatten.map (·.subject)).contains row.subject = true := by
      rw [hsubject]
      exact List.contains_iff_mem.mpr h
    rw [isCurrent_retire, hwritten, Bool.not_true, Bool.and_false]
    exact Bool.false_ne_true
  have hempty : empty.history subject = [] := rfl
  rw [current_eq, current_eq, history_replaceAll, history_replaceAll, List.filter_append, hold,
    hempty, List.map_nil, List.nil_append, List.nil_append]

/-- Writes that are put in once more change no current row. -/
theorem current_replaceAll_replaceAll (l : Ledger) (writes : List (List Emission))
    (subject : Int64) :
    ((l.replaceAll writes).replaceAll writes).current subject =
      (l.replaceAll writes).current subject := by
  by_cases h : subject ∈ writes.flatten.map (·.subject)
  · exact (current_replaceAll_of_mem h).trans (current_replaceAll_of_mem h).symm
  · rw [current_eq, history_replaceAll_of_not_mem h, ← current_eq]

end Writes

section Runs
variable {l : Ledger} {b : Basis} {options : RunOptions} {computedAt : Instant}
  {subjects : List Int64} {report : Report}

/-- At the same time, a run that is made again reports the same and writes the same. -/
theorem result_again (h : (l.recalculate b options computedAt subjects).outcome = .ok report) :
    let first := (l.recalculate b options computedAt subjects).ledger
    (first.recalculate b options computedAt subjects).outcome = .ok report ∧
      (first.recalculate b options computedAt subjects).ledger =
        first.replaceAll (l.writes b computedAt subjects) := by
  intro first
  have hactivities : first.activities = l.activities :=
    activities_recalculate l b options computedAt subjects
  have haccount : first.account b computedAt = l.account b computedAt :=
    funext fun x => account_congr hactivities x
  obtain ⟨hgoes, hreport⟩ := outcome_eq_ok_iff.mp h
  have hagain : (first.recalculate b options computedAt subjects).outcome = .ok report := by
    refine outcome_eq_ok_iff.mpr ⟨fun x hx e hf => hgoes x hx e (hf.congr hactivities), ?_⟩
    rw [haccount]
    exact hreport
  refine ⟨hagain, ?_⟩
  rw [(ledger_of_outcome hagain).1, writes_congr hactivities]

/-- A run that succeeds can be made again, at any time, and succeeds again with the same report but
for times. Every subject keeps its current rows, but for times. The rows of a subject are then those
that it had after the first run, where rows of subjects that were written become history, and behind
them the rows that the first run had put behind what it found. Those are the ones that were
committed for the subject. -/
theorem recalculate_again (l : Ledger) (b : Basis) (options : RunOptions) (s t : Instant)
    {subjects : List Int64} {report : Report}
    (h : (l.recalculate b options s subjects).outcome = .ok report) :
    let first := (l.recalculate b options s subjects).ledger
    let second := first.recalculate b options t subjects
    let written := report.committed.map (·.subject)
    (∃ again, second.outcome = .ok again ∧ again.untimed = report.untimed) ∧
    ∀ subject,
      (second.ledger.current subject).map Emission.untimed =
        (first.current subject).map Emission.untimed ∧
      ∃ rows,
        rows.map Emission.asHistory =
          (report.committed.filter fun m => m.subject == subject).map Emission.asHistory ∧
        first.history subject = (l.history subject).map (retire written) ++ rows ∧
        (second.ledger.history subject).map Emission.untimed =
          ((first.history subject).map (retire written) ++ rows).map Emission.untimed := by
  intro first second written
  obtain ⟨houtcome, hledger⟩ := result_again h
  obtain ⟨hfirst, hwritten⟩ := ledger_of_outcome h
  -- The second run differs from the one made at the time of the first in times alone.
  have hrows : second.ledger.untimed = (first.replaceAll (l.writes b s subjects)).untimed := by
    rw [← hledger]
    exact ledger_at_time first b options s t subjects
  refine ⟨outcome_at_time houtcome t, fun subject => ⟨?_, ?_⟩⟩
  · rw [← current_untimed, hrows, current_untimed]
    simp only [first]
    rw [hfirst, current_replaceAll_replaceAll]
  · refine ⟨(added (l.writes b s subjects)).filter fun m => m.subject == subject, ?_, ?_, ?_⟩
    · rw [filter_added_asHistory, hwritten]
    · simp only [first, written]
      rw [hfirst, history_replaceAll, hwritten]
    · calc (second.ledger.history subject).map Emission.untimed
        _ = second.ledger.untimed.history subject := (history_untimed _ _).symm
        _ = (first.replaceAll (l.writes b s subjects)).untimed.history subject := by rw [hrows]
        _ = ((first.replaceAll (l.writes b s subjects)).history subject).map Emission.untimed :=
          history_untimed _ _
        _ = _ := by rw [history_replaceAll, hwritten]

end Runs

/-- A run that names a cloud spend twice, made again a second later. -/
theorem cloud_runs_again :
    let first := unsettledClouds.recalculate awsRates .default ⟨9, 0⟩ [7, 8, 9, 2, 7]
    let second := first.ledger.recalculate awsRates .default ⟨10, 0⟩ [7, 8, 9, 2, 7]
    ∃ report again, first.outcome = .ok report ∧ second.outcome = .ok again ∧
      again.untimed = report.untimed ∧
      (second.ledger.current 7).map Emission.untimed =
        (first.ledger.current 7).map Emission.untimed ∧
      (first.ledger.history 7).length = 3 ∧ (second.ledger.history 7).length = 5 := by
  intro first second
  have houtcome : first.outcome = .ok _ := outcome_eq_join (not_fails_of_findSome? rfl)
  obtain ⟨⟨again, hagain, hreport⟩, hsubjects⟩ :=
    recalculate_again unsettledClouds awsRates .default ⟨9, 0⟩ ⟨10, 0⟩ houtcome
  obtain ⟨hcurrent, rows, hrows, hfirst, hsecond⟩ := hsubjects 7
  have hnew : rows.length = 2 := by
    have h := congrArg List.length hrows
    rw [List.length_map, List.length_map] at h
    exact h
  have hthree : (first.ledger.history 7).length = 3 := by
    have h := congrArg List.length hfirst
    rw [List.length_append, List.length_map, hnew] at h
    exact h
  have hfive : (second.ledger.history 7).length = 5 := by
    have h := congrArg List.length hsecond
    rw [List.length_map, List.length_map, List.length_append, List.length_map, hnew] at h
    exact h.trans (congrArg (· + 2) hthree)
  exact ⟨_, again, houtcome, hagain, hreport, hcurrent, hthree, hfive⟩

end Ledger

end CarbonLedger
