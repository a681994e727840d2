import CarbonLedger.Proofs.LastWrite
import Mathlib.Tactic.ByContra

namespace CarbonLedger

theorem Emission.isComplete_iff {m : Emission} : m.isComplete = true ↔ m.kg ≠ none :=
  Option.isSome_iff_ne_none

namespace Ledger

/-- Results that can be committed together: each has its kilograms, and no two are of one subject
and one kind. -/
structure Committable (es : List Emission) : Prop where
  complete : ∀ m ∈ es, m.kg ≠ none
  apart : es.Pairwise fun m n => m.subject = n.subject → m.kind ≠ n.kind

/-- What is said against a result that comes after others in a commit. One that lacks its kilograms
is not compared with the others. -/
inductive Objection (before : List Emission) (m : Emission) : String → Prop
  | incomplete (h : m.kg = none) : Objection before m
      ("Invalid emission write: " ++ ("no " ++ m.kind.name ++ " emission computed for subject " ++
        toString m.subject.toInt ++ ": " ++ m.reason.getD "unknown reason"))
  | repeated {n : Emission} (h : m.kg ≠ none) (hn : n ∈ before) (hsubject : n.subject = m.subject)
      (hkind : n.kind = m.kind) : Objection before m
      ("Invalid emission write: two " ++ m.kind.name ++ " results for subject " ++
        toString m.subject.toInt ++ " in one write")

theorem Objection.mono {before more : List Emission} {m : Emission} {text : String}
    (h : Objection before m text) (hsub : before ⊆ more) : Objection more m text := by
  cases h with
  | incomplete h => exact .incomplete h
  | repeated h hn hsubject hkind => exact .repeated h (hsub hn) hsubject hkind

/-- The check passes the emissions that can be committed. -/
theorem check_eq_ok_iff_committable {es : List Emission} : check es = .ok () ↔ Committable es := by
  have hpairs : (es.map fun m => (m.subject, m.kind)).Nodup ↔
      es.Pairwise fun m n => m.subject = n.subject → m.kind ≠ n.kind := by
    rw [List.Nodup, List.pairwise_map]
    simp only [ne_eq, Prod.mk.injEq, not_and]
  rw [check_eq_ok_iff, hpairs]
  simp only [Emission.isComplete_iff]
  exact ⟨fun h => ⟨h.1, h.2⟩, fun h => ⟨h.complete, h.apart⟩⟩

theorem not_committable_iff {es : List Emission} :
    ¬ Committable es ↔ (∃ m ∈ es, m.kg = none) ∨
      ∃ m n, [m, n].Sublist es ∧ m.subject = n.subject ∧ m.kind = n.kind := by
  constructor
  · intro h
    by_contra hnone
    obtain ⟨hcomplete, hapart⟩ := not_or.mp hnone
    refine h ⟨fun m hm hkg => hcomplete ⟨m, hm, hkg⟩, ?_⟩
    rw [List.pairwise_iff_forall_sublist]
    exact fun hmn hsubject hkind => hapart ⟨_, _, hmn, hsubject, hkind⟩
  · rintro (⟨m, hm, hkg⟩ | ⟨m, n, hmn, hsubject, hkind⟩) h
    · exact h.complete m hm hkg
    · exact List.pairwise_iff_forall_sublist.mp h.apart hmn hsubject hkind

section Check
variable {seen : List (Int64 × EmissionKind)} {m : Emission} {rest : List Emission}

theorem checkAfter_of_incomplete (h : m.kg = none) :
    checkAfter (m :: rest) seen = .error (.incomplete ("no " ++ m.kind.name ++
      " emission computed for subject " ++ toString m.subject.toInt ++ ": " ++
      m.reason.getD "unknown reason")) := by
  simp [checkAfter, Emission.gap?, Emission.isComplete, h]

theorem checkAfter_of_seen (h : m.kg ≠ none) (hseen : (m.subject, m.kind) ∈ seen) :
    checkAfter (m :: rest) seen = .error (.repeated m.kind m.subject) := by
  rw [checkAfter, Emission.gap?_eq_none_iff.mpr (Emission.isComplete_iff.mpr h)]
  simp [hseen]

theorem checkAfter_of_fresh (h : m.kg ≠ none) (hfresh : (m.subject, m.kind) ∉ seen) :
    checkAfter (m :: rest) seen = checkAfter rest ((m.subject, m.kind) :: seen) := by
  rw [checkAfter, Emission.gap?_eq_none_iff.mpr (Emission.isComplete_iff.mpr h)]
  simp [hfresh]

/-- A check that fails has passed all results before the one that it tells of. What it has seen by
then is what was seen at the start, and what it has passed. -/
theorem first_objection {es : List Emission} {e : CommitError} (old : List Emission)
    (h : checkAfter es (old.map fun n => (n.subject, n.kind)) = .error e) :
    ∃ before m rest, es = before ++ m :: rest ∧
      checkAfter before (old.map fun n => (n.subject, n.kind)) = .ok () ∧
      Objection (before ++ old) m e.message := by
  -- On the results that are left; `old` grows by the one that has passed.
  induction es generalizing old with
  | nil => cases h
  | cons m rest ih =>
    by_cases hkg : m.kg = none
    · rw [checkAfter_of_incomplete hkg] at h
      cases h
      exact ⟨[], m, rest, rfl, rfl, .incomplete hkg⟩
    · by_cases hseen : (m.subject, m.kind) ∈ old.map fun n => (n.subject, n.kind)
      · rw [checkAfter_of_seen hkg hseen] at h
        cases h
        obtain ⟨n, hn, hsame⟩ := List.mem_map.mp hseen
        obtain ⟨hsubject, hkind⟩ := Prod.mk.inj hsame
        exact ⟨[], m, rest, rfl, rfl, .repeated hkg hn hsubject hkind⟩
      · rw [checkAfter_of_fresh hkg hseen] at h
        obtain ⟨before, n, after, rfl, hbefore, hn⟩ := ih (m :: old) h
        refine ⟨m :: before, n, after, rfl, ?_, ?_⟩
        · rw [checkAfter_of_fresh hkg hseen]
          exact hbefore
        · -- The same results are behind, and in which order does not matter.
          exact hn.mono List.perm_middle.subset

end Check

/-- A write makes the rows of its subjects history and appends the new rows. -/
theorem rows_replace (l : Ledger) (es : List Emission) :
    (l.replace es).rows =
      l.rows.map (fun row => if row.subject ∈ es.map (·.subject) then row.asHistory else row) ++
        es.map Emission.asCurrent := by
  rw [replace, List.map_congr_left fun row _ => retire_eq (es.map (·.subject)) row]

/-- A commit is refused exactly if a result lacks its kilograms or two results are of one subject
and kind. Then it changes nothing, and tells of the first result that may not come after those
before it. Otherwise it answers the results as given, marked as current, and puts them behind the
rows of the ledger. Of these it retires those of the subjects that are written, and no other row is
touched. -/
theorem commit_is_made_whole_or_refused (l : Ledger) (es : List Emission) :
    let answer := ((put es).on l).1
    let after := ((put es).on l).2
    ((∃ e, answer = .error e) ↔ (∃ m ∈ es, m.kg = none) ∨
      ∃ m n, [m, n].Sublist es ∧ m.subject = n.subject ∧ m.kind = n.kind) ∧
    (∀ e, answer = .error e → after = l ∧
      ∃ before m rest, es = before ++ m :: rest ∧ Committable before ∧
        Objection before m e.message) ∧
    ∀ stored, answer = .ok stored →
      stored = es.map (fun m => { m with isCurrent := true }) ∧
      after.activities = l.activities ∧
      after.rows = l.rows.map (fun row =>
        if row.subject ∈ es.map (·.subject) then { row with isCurrent := false } else row) ++
          stored := by
  intro answer after
  rw [← not_committable_iff, ← check_eq_ok_iff_committable]
  have hon := on_put es l
  cases hcheck : check es with
  | ok u =>
    rw [hcheck] at hon
    have hanswer : answer = .ok (es.map Emission.asCurrent) := congrArg Prod.fst hon
    have hafter : after = l.replace es := congrArg Prod.snd hon
    rw [hanswer, hafter]
    refine ⟨by simp, by simp, ?_⟩
    rintro _ ⟨rfl⟩
    exact ⟨rfl, rfl, rows_replace l es⟩
  | error e =>
    rw [hcheck] at hon
    have hanswer : answer = .error e := congrArg Prod.fst hon
    have hafter : after = l := congrArg Prod.snd hon
    rw [hanswer, hafter]
    refine ⟨by simp, ?_, by simp⟩
    rintro _ ⟨rfl⟩
    obtain ⟨before, m, rest, hes, hbefore, hm⟩ := first_objection [] hcheck
    rw [List.append_nil] at hm
    exact ⟨rfl, before, m, rest, hes, check_eq_ok_iff_committable.mp hbefore, hm⟩

end Ledger
end CarbonLedger
