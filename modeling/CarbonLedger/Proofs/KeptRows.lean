import CarbonLedger.Proofs.HandledSubjects
import CarbonLedger.Proofs.LastWrite

/-! The rows that a run leaves of each subject. Only a subject whose emissions are all complete is
written. -/

namespace CarbonLedger
namespace Ledger

inductive Reached : Ledger → Prop
  | empty : Reached empty
  | store {l : Ledger} (s : StoredActivity) (h : Reached l) : Reached (l.store s)
  | put {l : Ledger} (es : List Emission) (h : Reached l) : Reached ((put es).on l).2

/-- The evaluation of a subject, if all of its emissions are complete. -/
def Settles (l : Ledger) (b : Basis) (computedAt : Instant) (subject : Int64)
    (e : Evaluation) : Prop :=
  ∃ r, l.Decodes subject r ∧ b.evaluate r computedAt = .ok e ∧
    ∀ m ∈ e.emissions, m.isComplete = true

/-- The rows of a subject for which the same emissions have been committed so many times. -/
def rewritten (old es : List Emission) : Nat → List Emission
  | 0 => old
  | n + 1 => (old ++ (List.replicate n es).flatten).map Emission.asHistory ++
      es.map Emission.asCurrent

section Rows
variable {l l' : Ledger} {b : Basis} {requireComplete : Bool} {computedAt : Instant}
  {subject : Int64} {e : Evaluation}

/-- A stored activity is found under its own subject. -/
theorem Reached.subject_eq (h : l.Reached) {stored : StoredActivity}
    (hstored : l.activity? subject = some stored) : stored.subject = subject := by
  induction h with
  | empty => cases hstored
  | @store l s _ ih =>
    rw [activity?_store] at hstored
    split at hstored
    · next hsubject =>
      cases hstored
      exact hsubject.symm
    · exact ih hstored
  | @put l es _ ih =>
    rcases on_put_cases es l with ⟨f, hon⟩ | ⟨_, hon⟩
    · rw [hon] at hstored
      exact ih hstored
    · rw [hon] at hstored
      exact ih hstored

theorem Reached.subject_of_decodes (h : l.Reached) {r : ActivityRecord}
    (hr : l.Decodes subject r) : r.subject = subject := by
  obtain ⟨stored, hstored, hdecode⟩ := hr
  rw [StoredActivity.subject_of_decode hdecode, h.subject_eq hstored]

theorem Decodes.unique {r r' : ActivityRecord} (h : l.Decodes subject r)
    (h' : l.Decodes subject r') : r = r' := by
  obtain ⟨stored, hstored, hdecode⟩ := h
  obtain ⟨stored', hstored', hdecode'⟩ := h'
  rw [hstored] at hstored'
  cases hstored'
  rw [hdecode] at hdecode'
  cases hdecode'
  rfl

theorem Settles.congr (h : l'.activities = l.activities)
    (he : l'.Settles b computedAt subject e) : l.Settles b computedAt subject e := by
  obtain ⟨r, hr, he⟩ := he
  exact ⟨r, hr.congr h, he⟩

theorem Settles.subject_eq (hl : l.Reached) (h : l.Settles b computedAt subject e)
    {m : Emission} (hm : m ∈ e.emissions) : m.subject = subject := by
  obtain ⟨r, hr, he, _⟩ := h
  rw [Basis.subject_of_mem_emissions he hm, hl.subject_of_decodes hr]

theorem not_settles (h : l.activity? subject = none ∨
      (∃ stored f, l.activity? subject = some stored ∧ stored.decode = .error f) ∨
      ∃ r e, l.Decodes subject r ∧ b.evaluate r computedAt = .ok e ∧
        ∃ m ∈ e.emissions, m.isComplete = false) :
    ∀ e, ¬ l.Settles b computedAt subject e := by
  rintro e ⟨r, hr, he, hcomplete⟩
  rcases h with hnone | ⟨stored, f, hstored, hdecode⟩ | ⟨r', e', hr', he', m, hm, hgap⟩
  · obtain ⟨_, hstored, _⟩ := hr
    rw [hnone] at hstored
    cases hstored
  · obtain ⟨_, hstored', hdecode'⟩ := hr
    rw [hstored] at hstored'
    cases hstored'
    rw [hdecode] at hdecode'
    cases hdecode'
  · -- There is but one record and one evaluation of it.
    cases hr.unique hr'
    rw [he] at he'
    cases he'
    rw [hcomplete m hm] at hgap
    cases hgap

/-- A subject whose emissions are complete gets them as its current rows. -/
theorem recalculateOne_of_settles (h : l.Settles b computedAt subject e) :
    l.recalculateOne b requireComplete computedAt subject = .ok (l.replace e.emissions,
      ⟨e.emissions.map Emission.asCurrent, [], [], [], e.ambiguities.map (subject, ·)⟩) := by
  obtain ⟨r, hr, he, hcomplete⟩ := h
  rw [recalculateOne_of_evaluate hr he, settle_of_complete he hcomplete]

/-- Taking a subject commits its emissions if it settles, and leaves the ledger alone if not. -/
theorem ledger_cases {report : Report}
    (h : l.recalculateOne b requireComplete computedAt subject = .ok (l', report)) :
    (∃ e, l.Settles b computedAt subject e ∧ l' = l.replace e.emissions) ∨
    (∀ e, ¬ l.Settles b computedAt subject e) ∧ l' = l := by
  by_cases hsettles : ∃ e, l.Settles b computedAt subject e
  · obtain ⟨e, he⟩ := hsettles
    rw [recalculateOne_of_settles he] at h
    cases h
    exact Or.inl ⟨e, he, rfl⟩
  · have hnot : ∀ e, ¬ l.Settles b computedAt subject e := fun e he => hsettles ⟨e, he⟩
    refine Or.inr ⟨hnot, ?_⟩
    have htakes := takes l b requireComplete computedAt subject
    rw [h] at htakes
    cases htakes with
    | missing => rfl
    | invalid => rfl
    | incomplete => rfl
    | complete hr he hcomplete => exact absurd ⟨_, hr, he, hcomplete⟩ (hnot _)

/-- A write retires the rows of its subject and appends the new ones. -/
theorem history_replace_self (l : Ledger) {es : List Emission} (hne : es ≠ [])
    (hes : ∀ m ∈ es, m.subject = subject) :
    (l.replace es).history subject =
      (l.history subject).map Emission.asHistory ++ es.map Emission.asCurrent := by
  have hmem : subject ∈ es.map (·.subject) := by
    obtain ⟨m, hm⟩ := List.exists_mem_of_ne_nil _ hne
    exact List.mem_map.mpr ⟨m, hm, hes m hm⟩
  have hall : es.filter (fun m => m.subject == subject) = es := by
    apply List.filter_eq_self.mpr
    intro m hm
    simp [hes m hm]
  rw [history_replace_of_mem l hmem, hall]

theorem rewritten_succ (old es : List Emission) (n : Nat) :
    (rewritten old es n).map Emission.asHistory ++ es.map Emission.asCurrent =
      rewritten old es (n + 1) := by
  cases n with
  | zero => simp [rewritten]
  | succ n =>
    -- The rows that were current so far join the history, and to retire a row twice is nothing new.
    have hlast : (List.replicate (n + 1) es).flatten = (List.replicate n es).flatten ++ es := by
      rw [List.replicate_succ', List.flatten_append, List.flatten_singleton]
    simp only [rewritten, hlast, List.map_append, List.map_map, Emission.asHistory_comp_asHistory,
      Emission.asHistory_comp_asCurrent, List.append_assoc]

end Rows

section Runs
variable {l : Ledger} {b : Basis} {options : RunOptions} {computedAt : Instant} {subject : Int64}

theorem Reached.recalculate (hl : l.Reached) (b : Basis) (options : RunOptions)
    (computedAt : Instant) (subjects : List Int64) :
    (l.recalculate b options computedAt subjects).ledger.Reached := by
  apply ledger_recalculate fun _ l' => l'.Reached
  · intro _ x l₁ l₂ report h₁ _ hone
    rcases ledger_cases hone with ⟨e, ⟨r, _, he, hcomplete⟩, rfl⟩ | ⟨_, rfl⟩
    · -- The commit is one that may be made, so it is as good as any other.
      have hput : ((Ledger.put e.emissions).on l₁).2 = l₁.replace e.emissions := by
        rw [on_put, check_of_evaluate he hcomplete]
      rw [← hput]
      exact .put _ h₁
    · exact h₁
  · exact hl

/-- What holds of rows whether they are current or not, and of all emissions that a run commits,
holds of the rows that it leaves. -/
theorem rows_recalculate (P : Emission → Prop) (hretire : ∀ row, P row → P row.asHistory)
    (hold : ∀ row ∈ l.rows, P row) {subjects : List Int64}
    (hnew : ∀ x ∈ subjects, ∀ e, l.Settles b computedAt x e → ∀ m ∈ e.emissions, P m.asCurrent) :
    ∀ row ∈ (l.recalculate b options computedAt subjects).ledger.rows, P row := by
  have hkept : l.handled b options.requireComplete computedAt subjects ⊆ subjects →
      ∀ row ∈ (l.recalculate b options computedAt subjects).ledger.rows, P row := by
    apply ledger_recalculate fun done l' => done ⊆ subjects → ∀ row ∈ l'.rows, P row
    · intro done x l₁ l₂ report h₁ hl₁ hone hdone
      obtain ⟨hbefore, hx⟩ := List.append_subset.mp hdone
      rcases ledger_cases hone with ⟨e, he, rfl⟩ | ⟨_, rfl⟩
      · intro row hrow
        rcases List.mem_append.mp hrow with hrow | hrow
        · obtain ⟨old, hmem, rfl⟩ := List.mem_map.mp hrow
          rw [retire]
          split
          · exact hretire old (h₁ hbefore old hmem)
          · exact h₁ hbefore old hmem
        · obtain ⟨m, hm, rfl⟩ := List.mem_map.mp hrow
          exact hnew x (hx (List.mem_singleton_self x)) e (he.congr hl₁) m hm
      · exact h₁ hbefore
    · exact fun _ => hold
  exact hkept (List.takeWhile_subset _)

theorem history_recalculateOne_of_ne {l₁ l₂ : Ledger} {x : Int64} {report : Report}
    (hl : l.Reached) (hl₁ : l₁.activities = l.activities)
    (hone : l₁.recalculateOne b options.requireComplete computedAt x = .ok (l₂, report))
    (hne : x ≠ subject) : l₂.history subject = l₁.history subject := by
  rcases ledger_cases hone with ⟨e, he, rfl⟩ | ⟨_, rfl⟩
  · -- What is committed is of the subject that was taken alone.
    apply history_replace_of_not_mem
    intro hmem
    obtain ⟨m, hm, hsubject⟩ := List.mem_map.mp hmem
    exact hne (((he.congr hl₁).subject_eq hl hm).symm.trans hsubject)
  · rfl

/-- A subject that is never settled keeps its rows, however often the run names it. -/
theorem history_recalculate_of_not_settles (hl : l.Reached)
    (h : ∀ e, ¬ l.Settles b computedAt subject e) (subjects : List Int64) :
    (l.recalculate b options computedAt subjects).ledger.history subject =
      l.history subject := by
  apply ledger_recalculate fun _ l' => l'.history subject = l.history subject
  · intro done x l₁ l₂ report hdone hl₁ hone
    by_cases hx : x = subject
    · subst hx
      rcases ledger_cases hone with ⟨e, he, rfl⟩ | ⟨_, rfl⟩
      · exact absurd (he.congr hl₁) (h e)
      · exact hdone
    · rw [history_recalculateOne_of_ne hl hl₁ hone hx]
      exact hdone
  · rfl

/-- A settled subject is rewritten each time the run handles it. -/
theorem history_recalculate_of_settles (hl : l.Reached) {e : Evaluation}
    (h : l.Settles b computedAt subject e) (subjects : List Int64) :
    (l.recalculate b options computedAt subjects).ledger.history subject =
      rewritten (l.history subject) e.emissions
        ((l.handled b options.requireComplete computedAt subjects).count subject) := by
  have hne : e.emissions ≠ [] := by
    obtain ⟨r, _, he, _⟩ := h
    exact Basis.emissions_ne_nil he
  -- So far the emissions were committed as often as the subject is among those behind the run.
  apply ledger_recalculate fun done l' =>
    l'.history subject = rewritten (l.history subject) e.emissions (done.count subject)
  · intro done x l₁ l₂ report hdone hl₁ hone
    by_cases hx : x = subject
    · subst hx
      rw [recalculateOne_of_settles (h.congr hl₁.symm)] at hone
      cases hone
      calc (l₁.replace e.emissions).history x
        _ = (l₁.history x).map Emission.asHistory ++ e.emissions.map Emission.asCurrent :=
          history_replace_self l₁ hne fun m hm => h.subject_eq hl hm
        _ = rewritten (l.history x) e.emissions (done.count x + 1) := by
          rw [hdone, rewritten_succ]
        _ = rewritten (l.history x) e.emissions ((done ++ [x]).count x) := by
          rw [List.count_append, List.count_singleton_self]
    · rw [history_recalculateOne_of_ne hl hl₁ hone hx, hdone, List.count_append,
        List.count_singleton, if_neg (by simpa using hx), Nat.add_zero]
  · rfl

/-- Subjects that the run does not name keep their rows. -/
theorem history_recalculate_of_not_mem (hl : l.Reached) {subjects : List Int64}
    (h : subject ∉ subjects) :
    (l.recalculate b options computedAt subjects).ledger.history subject =
      l.history subject := by
  by_cases hsettles : ∃ e, l.Settles b computedAt subject e
  · obtain ⟨e, he⟩ := hsettles
    have hcount : (l.handled b options.requireComplete computedAt subjects).count subject = 0 :=
      List.count_eq_zero.mpr fun hmem => h ((List.takeWhile_subset _) hmem)
    rw [history_recalculate_of_settles hl he, hcount, rewritten]
  · exact history_recalculate_of_not_settles hl (fun e he => hsettles ⟨e, he⟩) subjects

theorem current_of_history {r : ActivityRecord} {e : Evaluation} {old : List Emission}
    (he : b.evaluate r computedAt = .ok e)
    (h : l.history subject = old.map Emission.asHistory ++ e.emissions.map Emission.asCurrent) :
    l.current subject = e.emissions.map Emission.asCurrent := by
  rw [current_eq, h, filter_isCurrent]
  apply List.mergeSort_of_pairwise
  rw [List.pairwise_map]
  refine (Basis.emissions_ascend he).imp ?_
  intro m n hlt
  exact decide_eq_true (Nat.le_of_lt hlt)

/-- No run loses what is known of a subject, whether it succeeds or fails. The rows of a subject
that was not asked for, or has no activity, none that decodes, or one with an incomplete emission,
stay as they were. A subject that the run gets to and that evaluates to complete emissions has these
as its current rows, one for each kind that its record makes; all rows it had are kept as history.
-/
theorem recalculate_keeps_rows (hl : l.Reached) (b : Basis) (options : RunOptions)
    (computedAt : Instant) (subjects : List Int64) (subject : Int64) :
    let after := (l.recalculate b options computedAt subjects).ledger
    ((subject ∉ subjects ∨ l.activity? subject = none ∨
        (∃ stored e, l.activity? subject = some stored ∧ stored.decode = .error e) ∨
        ∃ r e, l.Decodes subject r ∧ b.evaluate r computedAt = .ok e ∧
          ∃ m ∈ e.emissions, m.isComplete = false) →
      after.history subject = l.history subject) ∧
    ∀ before rest r e, subjects = before ++ subject :: rest →
      (∀ x ∈ before, ∀ f, ¬ l.Fails b options.requireComplete computedAt x f) →
      l.Decodes subject r → b.evaluate r computedAt = .ok e →
      (∀ m ∈ e.emissions, m.isComplete = true) →
      after.current subject = e.emissions.map Emission.asCurrent ∧
      e.emissions.Pairwise (fun m n => m.kind.place < n.kind.place) ∧
      ∃ n, (l.handled b options.requireComplete computedAt subjects).count subject = n + 1 ∧
        after.history subject =
          (l.history subject ++ (List.replicate n e.emissions).flatten).map Emission.asHistory ++
            e.emissions.map Emission.asCurrent := by
  intro after
  constructor
  · rintro (hnot | hrest)
    · exact history_recalculate_of_not_mem hl hnot
    · exact history_recalculate_of_not_settles hl (not_settles hrest) subjects
  · rintro before rest r e rfl hbefore hr he hcomplete
    have hsettles : l.Settles b computedAt subject e := ⟨r, hr, he, hcomplete⟩
    have hgoes : l.failure? b options.requireComplete computedAt subject = none := by
      rw [failure?, recalculateOne_of_settles hsettles]
    have hmem : subject ∈
        l.handled b options.requireComplete computedAt (before ++ subject :: rest) :=
      mem_handled hbefore (failure?_eq_none_iff.mp hgoes)
    have hcount := List.count_pos_iff.mpr hmem
    obtain ⟨n, hn⟩ := Nat.exists_eq_add_one_of_ne_zero (Nat.ne_of_gt hcount)
    have hhistory : after.history subject = _ :=
      history_recalculate_of_settles hl hsettles (before ++ subject :: rest)
    rw [hn, rewritten] at hhistory
    exact ⟨current_of_history he hhistory, Basis.emissions_ascend he, n, hn, hhistory⟩

end Runs

def cloudSpend (subject : Int64) (provider : String) : ActivityRecord :=
  ⟨subject, .externalCloud ⟨provider, none, 80.0⟩⟩

def awsRates : Basis := ⟨⟨[(cloudRate 0.5 ⟨0, 0⟩).toFactor 1]⟩, .empty, .default, none⟩

def trainRow (subject : Int64) : Emission where
  subject := subject
  kind := .train
  kg := some 12.0
  distanceKm := some 120.0
  annualKwh := none
  factors := [5]
  formula := Trip.formula .train
  computedAt := ⟨0, 0⟩
  snapshot := .train ⟨"train", 1, 2, some "Zurich", some "Bern", none, 1, some 100.0, none,
    some "CH", some 0.1, none⟩
  isCurrent := false
  reason := none

def movedToClouds : Ledger :=
  ((put [trainRow 7, trainRow 8]).on ((empty.record (cloudSpend 7 "aws")).record
    (cloudSpend 8 "gcp"))).2

/-- The train row of a subject stays current while its new cloud spend has no rate. -/
theorem run_keeps_train_of_unrated_cloud :
    let l := movedToClouds
    let after := (l.recalculate awsRates .default ⟨9, 0⟩ [8, 9, 7, 7]).ledger
    ∃ e, l.Reached ∧ awsRates.evaluate (cloudSpend 7 "aws") ⟨9, 0⟩ = .ok e ∧
      e.emissions.map (·.kg) = [some 40.0] ∧
      after.history 8 = [(trainRow 8).asCurrent] ∧ after.history 9 = [] ∧
      after.current 7 = e.emissions.map Emission.asCurrent ∧
      after.history 7 = (trainRow 7).asHistory :: e.emissions.map Emission.asHistory ++
        e.emissions.map Emission.asCurrent := by
  intro l after
  have hl : l.Reached := .put _ (.store _ (.store _ .empty))
  have hkept := recalculate_keeps_rows hl awsRates .default ⟨9, 0⟩ [8, 9, 7, 7]
  have hdecodes : l.Decodes 7 (cloudSpend 7 "aws") := ⟨_, rfl, rfl⟩
  have hgap : l.Decodes 8 (cloudSpend 8 "gcp") := ⟨_, rfl, rfl⟩
  have hfails : ∀ x ∈ [8, 9], ∀ f, ¬ l.Fails awsRates false ⟨9, 0⟩ x f := by
    intro x hx
    obtain rfl | rfl : x = 8 ∨ x = 9 := by simpa using hx
    · exact failure?_eq_none_iff.mp rfl
    · exact failure?_eq_none_iff.mp rfl
  have hcomplete {e : Evaluation} (he : awsRates.evaluate (cloudSpend 7 "aws") ⟨9, 0⟩ = .ok e) :
      ∀ m ∈ e.emissions, m.isComplete = true := by
    cases he
    intro m hm
    rw [List.mem_singleton.mp hm]
    rfl
  obtain ⟨hcurrent, _, n, hn, hhistory⟩ :=
    (hkept 7).2 [8, 9] [7] _ _ rfl hfails hdecodes rfl (hcomplete rfl)
  have hcount : (l.handled awsRates false ⟨9, 0⟩ [8, 9, 7, 7]).count 7 = 2 := rfl
  obtain rfl : n = 1 := by
    have h := hn.symm.trans hcount
    omega
  refine ⟨_, hl, rfl, rfl, (hkept 8).1 ?_, (hkept 9).1 ?_, hcurrent, hhistory⟩
  · exact Or.inr (Or.inr (Or.inr ⟨_, _, hgap, rfl, _, List.mem_singleton_self _, rfl⟩))
  · exact Or.inr (Or.inl rfl)

end Ledger

end CarbonLedger
