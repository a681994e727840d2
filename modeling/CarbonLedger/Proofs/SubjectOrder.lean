import CarbonLedger.Proofs.SubjectReports

namespace CarbonLedger

structure Report.SameEntries (r r' : Report) : Prop where
  committed : r.committed.Perm r'.committed
  incomplete : r.incomplete.Perm r'.incomplete
  missing : r.missing.Perm r'.missing
  invalid : r.invalid.Perm r'.invalid
  ambiguities : r.ambiguities.Perm r'.ambiguities

namespace Report

theorem SameEntries.untimed {r r' : Report} (h : r.SameEntries r') :
    r.untimed.SameEntries r'.untimed where
  committed := h.committed.map Emission.untimed
  incomplete := h.incomplete.map Emission.untimed
  missing := h.missing
  invalid := h.invalid
  ambiguities := h.ambiguities

theorem sameEntries_join {rs rs' : List Report} (h : rs.Perm rs') :
    (join rs).SameEntries (join rs') where
  committed := h.flatMap_right _
  incomplete := h.flatMap_right _
  missing := h.flatMap_right _
  invalid := h.flatMap_right _
  ambiguities := h.flatMap_right _

end Report

namespace Ledger

section Orders
variable {l : Ledger} {b : Basis} {options : RunOptions} {computedAt : Instant}
  {xs ys : List Int64}

/-- Runs in two orders handle the same subjects, if none fails. -/
theorem handled_perm (h : xs.Perm ys)
    (hgoes : ∀ x ∈ xs, ∀ e, ¬ l.Fails b options.requireComplete computedAt x e) :
    (l.handled b options.requireComplete computedAt xs).Perm
      (l.handled b options.requireComplete computedAt ys) := by
  rw [handled_of_not_fails hgoes, handled_of_not_fails fun y hy => hgoes y (h.mem_iff.mpr hy)]
  exact h

/-- At the same time, runs in two orders leave the same rows of each subject. -/
theorem history_perm (hl : l.Reached) (h : xs.Perm ys)
    (hgoes : ∀ x ∈ xs, ∀ e, ¬ l.Fails b options.requireComplete computedAt x e) (subject : Int64) :
    (l.recalculate b options computedAt xs).ledger.history subject =
      (l.recalculate b options computedAt ys).ledger.history subject := by
  by_cases hsettles : ∃ e, l.Settles b computedAt subject e
  · obtain ⟨e, he⟩ := hsettles
    -- The emissions are committed as often as the subject is handled.
    rw [history_recalculate_of_settles hl he, history_recalculate_of_settles hl he,
      (handled_perm h hgoes).count_eq]
  · have hnot : ∀ e, ¬ l.Settles b computedAt subject e := fun e he => hsettles ⟨e, he⟩
    rw [history_recalculate_of_not_settles hl hnot, history_recalculate_of_not_settles hl hnot]

theorem succeeds_perm (h : xs.Perm ys)
    (hok : ∃ report, (l.recalculate b options computedAt xs).outcome = .ok report) :
    ∃ report, (l.recalculate b options computedAt ys).outcome = .ok report := by
  obtain ⟨report, hreport⟩ := hok
  exact outcome_of_not_fails fun y hy => not_fails_of_outcome hreport y (h.mem_iff.mpr hy)

/-- Subjects do not depend on each other. Runs in two orders both succeed or both fail, made at the
same time or not. When they succeed, they leave the same rows of every subject, in the same order
and with the same current ones, and each list of the one report has the entries of the other in some
order; all of this but for times. Subjects may be asked for more than once. -/
theorem recalculate_in_any_order (hl : l.Reached) (b : Basis) (options : RunOptions)
    (s t : Instant) (h : xs.Perm ys) :
    let first := l.recalculate b options s xs
    let second := l.recalculate b options t ys
    ((∃ r, first.outcome = .ok r) ↔ ∃ r, second.outcome = .ok r) ∧
    ∀ r r', first.outcome = .ok r → second.outcome = .ok r' →
      r.untimed.SameEntries r'.untimed ∧
      ∀ subject,
        (first.ledger.history subject).map Emission.untimed =
          (second.ledger.history subject).map Emission.untimed ∧
        (first.ledger.current subject).map Emission.untimed =
          (second.ledger.current subject).map Emission.untimed := by
  intro first second
  constructor
  · constructor
    · intro hok
      obtain ⟨r, hr⟩ := succeeds_perm h hok
      obtain ⟨r', hr', _⟩ := outcome_at_time hr t
      exact ⟨r', hr'⟩
    · intro hok
      obtain ⟨r, hr⟩ := succeeds_perm h.symm hok
      obtain ⟨r', hr', _⟩ := outcome_at_time hr s
      exact ⟨r', hr'⟩
  · intro r r' hr hr'
    -- The second order is taken at the time of the first, and then brought to its own time.
    obtain ⟨r'', hr'', huntimed⟩ := outcome_at_time hr' s
    obtain ⟨hgoes, rfl⟩ := outcome_eq_ok_iff.mp hr
    obtain ⟨_, rfl⟩ := outcome_eq_ok_iff.mp hr''
    have hhistory (subject : Int64) : (first.ledger.history subject).map Emission.untimed =
        (second.ledger.history subject).map Emission.untimed := by
      have htime : second.ledger.untimed = (l.recalculate b options s ys).ledger.untimed :=
        ledger_at_time l b options s t ys
      calc (first.ledger.history subject).map Emission.untimed
        _ = ((l.recalculate b options s ys).ledger.history subject).map Emission.untimed :=
          congrArg _ (history_perm hl h hgoes subject)
        _ = (l.recalculate b options s ys).ledger.untimed.history subject :=
          (history_untimed _ _).symm
        _ = second.ledger.untimed.history subject := by rw [htime]
        _ = (second.ledger.history subject).map Emission.untimed := history_untimed _ _
    refine ⟨?_, fun subject => ⟨hhistory subject, ?_⟩⟩
    · rw [← huntimed]
      exact (Report.sameEntries_join (h.map _)).untimed
    · rw [← current_untimed, ← current_untimed, current_eq, current_eq, history_untimed,
        history_untimed, hhistory subject]

end Orders

theorem clouds_in_two_orders :
    let l := unsettledClouds.record (cloudSpend 3 "aws")
    let first := l.recalculate awsRates .default ⟨9, 0⟩ [7, 8, 3, 9, 2]
    let second := l.recalculate awsRates .default ⟨10, 0⟩ [2, 3, 8, 7, 9]
    l.Reached ∧ [7, 8, 3, 9, 2].Perm [2, 3, 8, 7, (9 : Int64)] ∧
      ∃ r r', first.outcome = .ok r ∧ second.outcome = .ok r' ∧
        r.untimed.SameEntries r'.untimed ∧ r.committed.map (·.subject) = [7, 3] ∧
        first.ledger.rows.map (·.subject) = [7, 8, 7, 3] ∧
        second.ledger.rows.map (·.subject) = [7, 8, 3, 7] ∧
        (first.ledger.history 7).map Emission.untimed =
          (second.ledger.history 7).map Emission.untimed := by
  intro l first second
  have hl : l.Reached := .store _ (.store _ (.put _ (.store _ (.store _ .empty))))
  have hperm : [7, 8, 3, 9, 2].Perm [2, 3, 8, 7, (9 : Int64)] := by decide
  have hfirst : first.outcome = .ok _ := outcome_eq_join (not_fails_of_findSome? rfl)
  obtain ⟨hsucceeds, hsame⟩ :=
    recalculate_in_any_order hl awsRates .default ⟨9, 0⟩ ⟨10, 0⟩ hperm
  obtain ⟨r', hsecond⟩ := hsucceeds.mp ⟨_, hfirst⟩
  obtain ⟨hentries, hrows⟩ := hsame _ r' hfirst hsecond
  refine ⟨hl, hperm, _, r', hfirst, hsecond, hentries, rfl, ?_, ?_, (hrows 7).1⟩
  · have hrun : first = _ := recalculate_eq l awsRates .default ⟨9, 0⟩ [7, 8, 3, 9, 2]
    rw [hrun]
    rfl
  · have hrun : second = _ := recalculate_eq l awsRates .default ⟨10, 0⟩ [2, 3, 8, 7, 9]
    rw [hrun]
    rfl

end Ledger

end CarbonLedger
