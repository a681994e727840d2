import CarbonLedger.Proofs.RunSplitting
import CarbonLedger.Proofs.SubjectSteps

namespace CarbonLedger
namespace Ledger

def failure? (l : Ledger) (b : Basis) (requireComplete : Bool) (computedAt : Instant)
    (subject : Int64) : Option RunError :=
  match l.recalculateOne b requireComplete computedAt subject with
  | .ok _ => none
  | .error e => some e

def handled (l : Ledger) (b : Basis) (requireComplete : Bool) (computedAt : Instant)
    (subjects : List Int64) : List Int64 :=
  subjects.takeWhile fun x => (l.failure? b requireComplete computedAt x).isNone

section Subjects
variable {l l' : Ledger} {b : Basis} {requireComplete : Bool} {computedAt : Instant}
  {subject : Int64} {before after : List Int64}

/-- The failure that is found is the one that `Fails` describes. -/
theorem failure?_eq_some_iff {e : RunError} :
    l.failure? b requireComplete computedAt subject = some e ↔
      l.Fails b requireComplete computedAt subject e := by
  rw [← recalculateOne_eq_error_iff, failure?]
  cases l.recalculateOne b requireComplete computedAt subject <;> simp

/-- A subject without a failure does not fail. -/
theorem failure?_eq_none_iff :
    l.failure? b requireComplete computedAt subject = none ↔
      ∀ e, ¬ l.Fails b requireComplete computedAt subject e := by
  simp only [← failure?_eq_some_iff, Option.eq_none_iff_forall_ne_some]

theorem not_fails_of_findSome? {subjects : List Int64}
    (h : subjects.findSome? (l.failure? b requireComplete computedAt) = none) :
    ∀ x ∈ subjects, ∀ e, ¬ l.Fails b requireComplete computedAt x e := by
  intro x hx
  exact failure?_eq_none_iff.mp (List.findSome?_eq_none_iff.mp h x hx)

theorem Decodes.congr (h : l'.activities = l.activities) {r : ActivityRecord}
    (hr : l'.Decodes subject r) : l.Decodes subject r := by
  obtain ⟨stored, hstored, hdecode⟩ := hr
  rw [activity?, h] at hstored
  exact ⟨stored, hstored, hdecode⟩

/-- Failures depend on the activities of the ledger alone, not on its rows. -/
theorem Fails.congr (h : l'.activities = l.activities) {e : RunError}
    (hf : l'.Fails b requireComplete computedAt subject e) :
    l.Fails b requireComplete computedAt subject e := by
  cases hf with
  | noFormula hstored hkind =>
    rw [activity?, h] at hstored
    exact .noFormula hstored hkind
  | trip hr htrip hfails => exact .trip (hr.congr h) htrip hfails
  | incomplete hrequired hr he hm hgap => exact .incomplete hrequired (hr.congr h) he hm hgap

theorem failure?_congr (h : l'.activities = l.activities) (subject : Int64) :
    l'.failure? b requireComplete computedAt subject =
      l.failure? b requireComplete computedAt subject := by
  apply Option.ext
  intro e
  rw [failure?_eq_some_iff, failure?_eq_some_iff]
  exact ⟨Fails.congr h, Fails.congr h.symm⟩

/-- Recalculating a subject leaves the activities as they are. -/
theorem activities_recalculateOne {report : Report}
    (h : l.recalculateOne b requireComplete computedAt subject = .ok (l', report)) :
    l'.activities = l.activities := by
  have htakes := takes l b requireComplete computedAt subject
  rw [h] at htakes
  cases htakes <;> rfl

theorem handled_cons :
    l.handled b requireComplete computedAt (subject :: after) =
      match l.failure? b requireComplete computedAt subject with
      | none => subject :: l.handled b requireComplete computedAt after
      | some _ => [] := by
  rw [handled, List.takeWhile_cons]
  cases l.failure? b requireComplete computedAt subject <;> rfl

/-- Subjects that do not fail are handled, and the run goes on after them. -/
theorem handled_append (h : ∀ x ∈ before, ∀ e, ¬ l.Fails b requireComplete computedAt x e) :
    l.handled b requireComplete computedAt (before ++ after) =
      before ++ l.handled b requireComplete computedAt after := by
  apply List.takeWhile_append_of_pos
  intro x hx
  rw [failure?_eq_none_iff.mpr (h x hx)]
  rfl

theorem mem_handled (hbefore : ∀ x ∈ before, ∀ e, ¬ l.Fails b requireComplete computedAt x e)
    (h : ∀ e, ¬ l.Fails b requireComplete computedAt subject e) :
    subject ∈ l.handled b requireComplete computedAt (before ++ subject :: after) := by
  rw [handled_append hbefore, handled_cons, failure?_eq_none_iff.mpr h]
  exact List.mem_append_right before List.mem_cons_self

theorem result_nil (l : Ledger) (b : Basis) (options : RunOptions) (computedAt : Instant) :
    (l.recalculate b options computedAt []).result = (l, .ok .empty) :=
  result_recalculate l b options computedAt []

theorem result_cons (l : Ledger) (b : Basis) (options : RunOptions) (computedAt : Instant)
    (subject : Int64) (rest : List Int64) :
    (l.recalculate b options computedAt (subject :: rest)).result =
      match l.recalculateOne b options.requireComplete computedAt subject with
      | .ok (l', report) => ((l'.recalculate b options computedAt rest).ledger,
          (l'.recalculate b options computedAt rest).outcome.map (report ++ ·))
      | .error e => (l, .error e) := by
  have hone : (l.recalculate b options computedAt [subject]).result =
      match l.recalculateOne b options.requireComplete computedAt subject with
      | .ok (l', report) => (l', .ok report)
      | .error e => (l, .error e) := by
    rw [result_recalculate, List.foldl_cons, List.foldl_nil, step]
    simp only [fresh]
    cases l.recalculateOne b options.requireComplete computedAt subject with
    | ok p => simp only [State.result, Report.empty_append, Option.elim_none]
    | error e => rfl
  rw [← List.singleton_append, recalculate_append]
  -- The first of the two runs is known, so put its ledger and outcome in.
  generalize l.recalculate b options computedAt [subject] = first at hone ⊢
  cases h : l.recalculateOne b options.requireComplete computedAt subject with
  | ok p =>
    rw [h] at hone
    have hledger : first.ledger = p.1 := congrArg Prod.fst hone
    have houtcome : first.outcome = .ok p.2 := congrArg Prod.snd hone
    rw [Run.andThen, houtcome, hledger]
  | error e =>
    rw [h] at hone
    have hledger : first.ledger = l := congrArg Prod.fst hone
    have houtcome : first.outcome = .error e := congrArg Prod.snd hone
    rw [Run.andThen, houtcome, hledger]

section Runs
variable {options : RunOptions}

theorem ledger_nil : (l.recalculate b options computedAt []).ledger = l :=
  congrArg Prod.fst (result_nil l b options computedAt)

theorem outcome_nil : (l.recalculate b options computedAt []).outcome = .ok .empty :=
  congrArg Prod.snd (result_nil l b options computedAt)

theorem ledger_cons :
    (l.recalculate b options computedAt (subject :: after)).ledger =
      match l.recalculateOne b options.requireComplete computedAt subject with
      | .ok (l', _) => (l'.recalculate b options computedAt after).ledger
      | .error _ => l := by
  refine (congrArg Prod.fst (result_cons l b options computedAt subject after)).trans ?_
  cases l.recalculateOne b options.requireComplete computedAt subject <;> rfl

theorem outcome_cons :
    (l.recalculate b options computedAt (subject :: after)).outcome =
      match l.recalculateOne b options.requireComplete computedAt subject with
      | .ok (l', report) => (l'.recalculate b options computedAt after).outcome.map (report ++ ·)
      | .error e => .error e := by
  refine (congrArg Prod.snd (result_cons l b options computedAt subject after)).trans ?_
  cases l.recalculateOne b options.requireComplete computedAt subject <;> rfl

/-- A run ends with the error of the first subject that stops it. -/
theorem outcome_eq_error_iff {subjects : List Int64} {e : RunError} :
    (l.recalculate b options computedAt subjects).outcome = .error e ↔
      subjects.findSome? (l.failure? b options.requireComplete computedAt) = some e := by
  induction subjects generalizing l with
  | nil =>
    rw [outcome_nil, List.findSome?_nil]
    simp
  | cons x r ih =>
    rw [outcome_cons, List.findSome?_cons, failure?]
    cases hx : l.recalculateOne b options.requireComplete computedAt x with
    | error d => simp
    | ok p =>
      have hsame : l.failure? b options.requireComplete computedAt =
          p.1.failure? b options.requireComplete computedAt :=
        funext fun y => (failure?_congr (activities_recalculateOne hx) y).symm
      simp only [hsame, ← ih]
      cases (p.1.recalculate b options computedAt r).outcome <;> simp [Except.map]

/-- What holds of a ledger at the start, and is kept by each subject that a run takes, holds of the
ledger that the run leaves. -/
theorem ledger_recalculate (P : List Int64 → Ledger → Prop)
    (hstep : ∀ done x l₁ l₂ report, P done l₁ → l₁.activities = l.activities →
      l₁.recalculateOne b options.requireComplete computedAt x = .ok (l₂, report) →
      P (done ++ [x]) l₂)
    (hstart : P [] l) (subjects : List Int64) :
    P (l.handled b options.requireComplete computedAt subjects)
      (l.recalculate b options computedAt subjects).ledger := by
  -- The run may have begun: `done` is behind it, and it stands at `l₁`.
  have h (subjects done : List Int64) (l₁ : Ledger) (hdone : P done l₁)
      (hl₁ : l₁.activities = l.activities) :
      P (done ++ l.handled b options.requireComplete computedAt subjects)
        (l₁.recalculate b options computedAt subjects).ledger := by
    induction subjects generalizing done l₁ with
    | nil =>
      rw [ledger_nil, handled, List.takeWhile_nil, List.append_nil]
      exact hdone
    | cons x r ih =>
      rw [ledger_cons, handled_cons, ← failure?_congr hl₁, failure?]
      cases hx : l₁.recalculateOne b options.requireComplete computedAt x with
      | error e =>
        simp only [List.append_nil]
        exact hdone
      | ok p =>
        simp only
        rw [List.append_cons]
        apply ih
        · exact hstep done x l₁ p.1 p.2 hdone hl₁ hx
        · exact (activities_recalculateOne hx).trans hl₁
  exact h subjects [] l hstart rfl

end Runs

/-- A run leaves the activities as they are, also where it fails. -/
theorem activities_recalculate (l : Ledger) (b : Basis) (options : RunOptions)
    (computedAt : Instant) (subjects : List Int64) :
    (l.recalculate b options computedAt subjects).ledger.activities = l.activities := by
  apply ledger_recalculate fun _ l' => l'.activities = l.activities
  · intro _ _ l₁ l₂ report _ hl₁ hx
    exact (activities_recalculateOne hx).trans hl₁
  · rfl

end Subjects

end Ledger

end CarbonLedger
