import CarbonLedger.Ledger.Store

/-! What a ledger holds after a run of commits: the last results of each subject are current, and
all before them are kept in their order. -/

namespace CarbonLedger

namespace Emission

theorem asHistory_comp_asHistory : asHistory ∘ asHistory = asHistory := rfl

theorem asHistory_comp_asCurrent : asHistory ∘ asCurrent = asHistory := rfl

end Emission

namespace Ledger

def afterCommits (l : Ledger) (calls : List (List Emission)) : Ledger :=
  calls.foldl (fun l es => ((put es).on l).2) l

def committed (l : Ledger) : List (List Emission) → List (List Emission)
  | [] => []
  | es :: r =>
    match (put es).on l with
    | (.ok _, l) => es :: l.committed r
    | (.error _, l) => l.committed r

def writesFor (subject : Int64) (writes : List (List Emission)) : List (List Emission) :=
  (writes.map fun es => es.filter fun e => e.subject == subject).filter fun es => !es.isEmpty

def lastWrite (subject : Int64) (writes : List (List Emission)) : List Emission :=
  (writesFor subject writes).getLast?.getD []

def earlierWrites (subject : Int64) (writes : List (List Emission)) : List Emission :=
  (writesFor subject writes).dropLast.flatten

/-- A write fails and changes nothing, or it passes the check and replaces the rows. -/
theorem on_put_cases (es : List Emission) (l : Ledger) :
    (∃ e, (put es).on l = (.error e, l)) ∨
    check es = .ok () ∧ (put es).on l = (.ok (es.map Emission.asCurrent), l.replace es) := by
  rw [on_put]
  cases h : check es with
  | ok u => exact Or.inr ⟨rfl, rfl⟩
  | error e => exact Or.inl ⟨e, rfl⟩

/-- What every commit that succeeds keeps of a ledger and of the writes it has seen holds after any
run. -/
theorem run_keeps (P : Ledger → List (List Emission) → Prop)
    (hstep : ∀ l writes es, P l writes → check es = .ok () → P (l.replace es) (writes ++ [es]))
    {l : Ledger} (writes : List (List Emission)) (h : P l writes) (calls : List (List Emission)) :
    P (l.afterCommits calls) (writes ++ l.committed calls) := by
  induction calls generalizing l writes with
  | nil => simpa [afterCommits, committed] using h
  | cons es r ih =>
    rw [afterCommits, List.foldl_cons, committed]
    rcases on_put_cases es l with ⟨e, hon⟩ | ⟨hcheck, hon⟩
    · rw [hon]
      exact ih writes h
    · rw [hon, List.append_cons]
      exact ih (writes ++ [es]) (hstep l writes es h hcheck)

/-- A row of the subjects becomes history. One that is history already is its own history. -/
theorem retire_eq (subjects : List Int64) (row : Emission) :
    retire subjects row = if row.subject ∈ subjects then row.asHistory else row := by
  cases hcurrent : row.isCurrent with
  | true => simp [retire, hcurrent]
  | false =>
    have hself : row.asHistory = row := by rw [Emission.asHistory, ← hcurrent]
    simp [retire, hcurrent, hself]

theorem retire_of_not_mem {subjects : List Int64} {e : Emission} (h : e.subject ∉ subjects) :
    retire subjects e = e := by
  rw [retire_eq, if_neg h]

theorem mem_writesFor {subject : Int64} {writes : List (List Emission)} {es : List Emission}
    (h : es ∈ writesFor subject writes) :
    ∃ w ∈ writes, es = w.filter fun e => e.subject == subject := by
  obtain ⟨hes, _⟩ := List.mem_filter.mp h
  obtain ⟨w, hw, rfl⟩ := List.mem_map.mp hes
  exact ⟨w, hw, rfl⟩

theorem lastWrite_eq_nil_or_mem (subject : Int64) (writes : List (List Emission)) :
    lastWrite subject writes = [] ∨ lastWrite subject writes ∈ writesFor subject writes := by
  rw [lastWrite]
  cases h : (writesFor subject writes).getLast? with
  | none => exact Or.inl rfl
  | some es => exact Or.inr (List.mem_of_getLast? h)

theorem subject_of_mem_lastWrite {subject : Int64} {writes : List (List Emission)} {e : Emission}
    (h : e ∈ lastWrite subject writes) : e.subject = subject := by
  rcases lastWrite_eq_nil_or_mem subject writes with hnil | hmem
  · rw [hnil] at h
    cases h
  · obtain ⟨w, _, hw⟩ := mem_writesFor hmem
    rw [hw] at h
    simpa using (List.mem_filter.mp h).2

theorem writesFor_append_of_eq_nil {subject : Int64} {writes : List (List Emission)}
    {es : List Emission} (h : es.filter (fun e => e.subject == subject) = []) :
    writesFor subject (writes ++ [es]) = writesFor subject writes := by
  simp [writesFor, h]

theorem writesFor_append_of_ne_nil {subject : Int64} {writes : List (List Emission)}
    {es : List Emission} (h : es.filter (fun e => e.subject == subject) ≠ []) :
    writesFor subject (writes ++ [es]) =
      writesFor subject writes ++ [es.filter fun e => e.subject == subject] := by
  have hes : (es.filter fun e => e.subject == subject).isEmpty = false := by
    simpa using h
  rw [writesFor, List.map_append, List.filter_append, List.map_singleton,
    List.filter_cons_of_pos (by rw [hes]; rfl), List.filter_nil, writesFor]

theorem flatten_writesFor (subject : Int64) (writes : List (List Emission)) :
    (writesFor subject writes).flatten =
      writes.flatten.filter fun e => e.subject == subject := by
  rw [writesFor, List.flatten_filter_not_isEmpty, List.filter_flatten]

/-- Together they are all results that were written for a subject. -/
theorem earlier_append_last (subject : Int64) (writes : List (List Emission)) :
    earlierWrites subject writes ++ lastWrite subject writes =
      writes.flatten.filter fun e => e.subject == subject := by
  rw [← flatten_writesFor, earlierWrites, lastWrite]
  cases h : (writesFor subject writes).getLast? with
  | none =>
    rw [List.getLast?_eq_none_iff.mp h]
    rfl
  | some es =>
    obtain ⟨before, hbefore⟩ := List.getLast?_eq_some_iff.mp h
    rw [hbefore, List.dropLast_concat, List.flatten_append, List.flatten_singleton,
      Option.getD_some]

/-- A ledger shows the writes of a subject: those before the last one as history, the last one as
current. -/
def Shows (l : Ledger) (subject : Int64) (writes : List (List Emission)) : Prop :=
  l.history subject = (earlierWrites subject writes).map Emission.asHistory ++
    (lastWrite subject writes).map Emission.asCurrent

theorem history_replace_of_not_mem (l : Ledger) {es : List Emission} {subject : Int64}
    (h : subject ∉ es.map (·.subject)) : (l.replace es).history subject = l.history subject := by
  have hnone : es.filter (fun e => e.subject == subject) = [] := by
    apply List.filter_eq_nil_iff.mpr
    intro e he hsub
    exact h (List.mem_map.mpr ⟨e, he, by simpa using hsub⟩)
  have hsame : ∀ e ∈ l.history subject, retire (es.map (·.subject)) e = id e := by
    intro e he
    have hsub : e.subject = subject := by simpa using (List.mem_filter.mp he).2
    exact retire_of_not_mem (hsub ▸ h)
  rw [history_replace, List.map_congr_left hsame, List.map_id, hnone, List.map_nil, List.append_nil]

/-- A commit for a subject: all of its rows become history, and what is committed for it follows.
-/
theorem history_replace_of_mem (l : Ledger) {es : List Emission} {subject : Int64}
    (h : subject ∈ es.map (·.subject)) :
    (l.replace es).history subject = (l.history subject).map Emission.asHistory ++
      (es.filter fun e => e.subject == subject).map Emission.asCurrent := by
  have hretire : ∀ row ∈ l.history subject,
      retire (es.map (·.subject)) row = row.asHistory := by
    intro row hrow
    have hsubject : row.subject = subject := by simpa using (List.mem_filter.mp hrow).2
    rw [retire_eq, if_pos (hsubject ▸ h)]
  rw [history_replace, List.map_congr_left hretire]

theorem shows_replace_others {l : Ledger} {subject : Int64} {writes : List (List Emission)}
    (h : l.Shows subject writes) {es : List Emission}
    (hes : es.filter (fun e => e.subject == subject) = []) :
    (l.replace es).Shows subject (writes ++ [es]) := by
  have hnot : subject ∉ es.map (·.subject) := by
    intro hmem
    obtain ⟨e, he, hsub⟩ := List.mem_map.mp hmem
    exact List.filter_eq_nil_iff.mp hes e he (by simpa using hsub)
  rw [Shows, history_replace_of_not_mem l hnot, earlierWrites, lastWrite,
    writesFor_append_of_eq_nil hes]
  exact h

theorem shows_replace_subject {l : Ledger} {subject : Int64} {writes : List (List Emission)}
    (h : l.Shows subject writes) {es : List Emission}
    (hes : es.filter (fun e => e.subject == subject) ≠ []) :
    (l.replace es).Shows subject (writes ++ [es]) := by
  have hmem : subject ∈ es.map (·.subject) := by
    obtain ⟨e, he⟩ := List.exists_mem_of_ne_nil _ hes
    obtain ⟨he, hsub⟩ := List.mem_filter.mp he
    exact List.mem_map.mpr ⟨e, he, by simpa using hsub⟩
  have hold : (l.history subject).map Emission.asHistory =
      (writesFor subject writes).flatten.map Emission.asHistory := by
    unfold Shows at h
    rw [h, List.map_append, List.map_map, List.map_map, Emission.asHistory_comp_asHistory,
      Emission.asHistory_comp_asCurrent, ← List.map_append, earlier_append_last,
      flatten_writesFor]
  rw [Shows, history_replace_of_mem l hmem, hold, earlierWrites, lastWrite,
    writesFor_append_of_ne_nil hes, List.dropLast_concat, List.getLast?_concat, Option.getD_some]

/-- A write adds to the writes that the ledger shows, for every subject. -/
theorem shows_replace {l : Ledger} {subject : Int64} {writes : List (List Emission)}
    (h : l.Shows subject writes) (es : List Emission) :
    (l.replace es).Shows subject (writes ++ [es]) := by
  by_cases hes : es.filter (fun e => e.subject == subject) = []
  · exact shows_replace_others h hes
  · exact shows_replace_subject h hes

/-- After a list of calls the ledger shows the writes that were committed. -/
theorem shows_run {l : Ledger} {subject : Int64} {writes : List (List Emission)}
    (h : l.Shows subject writes) (calls : List (List Emission)) :
    (l.afterCommits calls).Shows subject (writes ++ l.committed calls) :=
  run_keeps (fun l writes => l.Shows subject writes) (fun _ _ es hs _ => shows_replace hs es)
    writes h calls

theorem check_run (l : Ledger) (calls : List (List Emission)) :
    ∀ es ∈ l.committed calls, check es = .ok () := by
  have hstart : ∀ es ∈ ([] : List (List Emission)), check es = .ok () := by
    intro es hes
    cases hes
  refine run_keeps (fun _ writes => ∀ es ∈ writes, check es = .ok ()) ?_ [] hstart calls
  intro _ writes es hw hes fs hfs
  rcases List.mem_append.mp hfs with hfs | hfs
  · exact hw fs hfs
  · rw [List.mem_singleton.mp hfs]
    exact hes

/-- The last write of a subject has each kind at most once. -/
theorem kinds_lastWrite {subject : Int64} {writes : List (List Emission)}
    (h : ∀ es ∈ writes, check es = .ok ()) :
    (lastWrite subject writes).Pairwise fun a b => a.kind ≠ b.kind := by
  rcases lastWrite_eq_nil_or_mem subject writes with hnil | hmem
  · rw [hnil]
    exact List.Pairwise.nil
  · obtain ⟨w, hw, hlast⟩ := mem_writesFor hmem
    -- Results of one write differ in subject or kind, and here the subject is the same.
    have hpairs := (List.pairwise_map.mp (check_eq_ok_iff.mp (h w hw)).2).filter
      fun e => e.subject == subject
    rw [← hlast] at hpairs
    refine hpairs.imp_of_mem ?_
    intro a b ha hb hne hkind
    apply hne
    rw [subject_of_mem_lastWrite ha, subject_of_mem_lastWrite hb, hkind]

theorem current_eq (l : Ledger) (subject : Int64) :
    l.current subject = ((l.history subject).filter Emission.isCurrent).mergeSort
      fun a b => a.kind.place ≤ b.kind.place := by
  rw [current, history, List.filter_filter]
  congr 1
  apply List.filter_congr
  intro e _
  exact Bool.and_comm _ _

theorem filter_isCurrent (old new : List Emission) :
    (old.map Emission.asHistory ++ new.map Emission.asCurrent).filter Emission.isCurrent =
      new.map Emission.asCurrent := by
  have hold : (old.map Emission.asHistory).filter Emission.isCurrent = [] := by
    apply List.filter_eq_nil_iff.mpr
    intro e he
    obtain ⟨k, _, rfl⟩ := List.mem_map.mp he
    exact Bool.false_ne_true
  have hnew : (new.map Emission.asCurrent).filter Emission.isCurrent =
      new.map Emission.asCurrent := by
    apply List.filter_eq_self.mpr
    intro e he
    obtain ⟨k, _, rfl⟩ := List.mem_map.mp he
    rfl
  rw [List.filter_append, hold, hnew, List.nil_append]

/-- The current rows of a subject are those of its last write, in some order. -/
theorem current_perm {l : Ledger} {subject : Int64} {writes : List (List Emission)}
    (h : l.Shows subject writes) :
    (l.current subject).Perm ((lastWrite subject writes).map Emission.asCurrent) := by
  unfold Shows at h
  rw [current_eq, h, filter_isCurrent]
  exact List.mergeSort_perm _ _

theorem place_injective {a b : EmissionKind} (h : a.place = b.place) : a = b := by
  cases a <;> cases b <;> first | rfl | cases h

/-- The current rows of a subject come in the order of their kinds, each kind once. -/
theorem current_ascending {l : Ledger} {subject : Int64} {writes : List (List Emission)}
    (h : l.Shows subject writes) (hw : ∀ es ∈ writes, check es = .ok ()) :
    (l.current subject).Pairwise fun a b => a.kind.place < b.kind.place := by
  have hkinds : (l.current subject).Pairwise fun a b => a.kind ≠ b.kind := by
    apply (current_perm h).symm.pairwise
    · exact List.pairwise_map.mpr (kinds_lastWrite hw)
    · exact fun hne => hne.symm
  have hsorted : (l.current subject).Pairwise fun a b =>
      decide (a.kind.place ≤ b.kind.place) = true := by
    apply List.pairwise_mergeSort
    · intro a b c hab hbc
      rw [decide_eq_true_iff] at *
      omega
    · intro a b
      rw [Bool.or_eq_true, decide_eq_true_iff, decide_eq_true_iff]
      omega
  refine hsorted.imp₂ ?_ hkinds
  intro a b hle hne
  have hplace := mt place_injective hne
  have hle := of_decide_eq_true hle
  omega

/-- Without regard to flags the rows are what was written, in this order. -/
theorem rows_run {l : Ledger} {writes : List (List Emission)}
    (h : l.rows.map Emission.asHistory = writes.flatten.map Emission.asHistory)
    (calls : List (List Emission)) :
    (l.afterCommits calls).rows.map Emission.asHistory =
      (writes ++ l.committed calls).flatten.map Emission.asHistory := by
  refine run_keeps (fun l writes => l.rows.map Emission.asHistory =
    writes.flatten.map Emission.asHistory) ?_ writes h calls
  intro l writes es h _
  have hretire : Emission.asHistory ∘ retire (es.map (·.subject)) = Emission.asHistory := by
    funext e
    rw [Function.comp_apply, retire]
    split <;> rfl
  calc
    (l.replace es).rows.map Emission.asHistory =
        l.rows.map Emission.asHistory ++ es.map Emission.asHistory := by
      rw [replace, List.map_append, List.map_map, List.map_map, hretire,
        Emission.asHistory_comp_asCurrent]
    _ = writes.flatten.map Emission.asHistory ++ es.map Emission.asHistory := by rw [h]
    _ = (writes ++ [es]).flatten.map Emission.asHistory := by
      rw [List.flatten_append, List.flatten_singleton, List.map_append]

/-- A write leaves a row as it is or makes it history, in its place. -/
theorem row_replace {l : Ledger} {i : Nat} {row : Emission} (h : l.rows[i]? = some row)
    (es : List Emission) :
    (l.replace es).rows[i]? = some row ∨ (l.replace es).rows[i]? = some row.asHistory := by
  obtain ⟨hlt, _⟩ := List.getElem?_eq_some_iff.mp h
  have hrow : (l.replace es).rows[i]? = some (retire (es.map (·.subject)) row) := by
    rw [replace, List.getElem?_append_left (by rwa [List.length_map]), List.getElem?_map, h,
      Option.map_some]
  rw [hrow, retire]
  split
  · exact Or.inr rfl
  · exact Or.inl rfl

/-- A row stays where it is, and all that can happen to it is that it becomes history. -/
theorem row_run {l : Ledger} {i : Nat} {row : Emission} (h : l.rows[i]? = some row)
    (calls : List (List Emission)) :
    (l.afterCommits calls).rows[i]? = some row ∨
      (l.afterCommits calls).rows[i]? = some row.asHistory := by
  have hstep (l : Ledger) (writes : List (List Emission)) (es : List Emission)
      (h : l.rows[i]? = some row ∨ l.rows[i]? = some row.asHistory) (_ : check es = .ok ()) :
      (l.replace es).rows[i]? = some row ∨ (l.replace es).rows[i]? = some row.asHistory := by
    rcases h with hrow | hrow
    · exact row_replace hrow es
    · -- A row that became history is its own history.
      exact Or.inr ((row_replace hrow es).elim id id)
  exact run_keeps (fun l _ => l.rows[i]? = some row ∨ l.rows[i]? = some row.asHistory) hstep []
    (Or.inl h) calls

theorem afterCommits_append (l : Ledger) (calls more : List (List Emission)) :
    l.afterCommits (calls ++ more) = (l.afterCommits calls).afterCommits more := by
  rw [afterCommits, List.foldl_append]
  rfl

/-- After any run of commits a subject has the results of its last write that succeeded as current
rows, one for each kind and in the order of kinds, and those of all writes before as history. All
that was written is kept in order, and a row that became history stays as it is. -/
theorem run_shows_last_writes (calls : List (List Emission)) (subject : Int64) :
    let done := empty.committed calls
    let l := empty.afterCommits calls
    l.history subject = (earlierWrites subject done).map Emission.asHistory ++
      (lastWrite subject done).map Emission.asCurrent ∧
    (l.current subject).Perm ((lastWrite subject done).map Emission.asCurrent) ∧
    (l.current subject).Pairwise (fun a b => a.kind.place < b.kind.place) ∧
    l.rows.map Emission.asHistory = done.flatten.map Emission.asHistory ∧
    ∀ more (i : Nat) (row : Emission), l.rows[i]? = some row →
      (empty.afterCommits (calls ++ more)).rows[i]? = some row ∨
      (empty.afterCommits (calls ++ more)).rows[i]? = some row.asHistory := by
  intro done l
  have hstart : empty.Shows subject [] := rfl
  have hshows : l.Shows subject done := shows_run hstart calls
  have hrows : empty.rows.map Emission.asHistory =
      ([] : List (List Emission)).flatten.map Emission.asHistory := rfl
  refine ⟨hshows, current_perm hshows, current_ascending hshows (check_run _ calls), ?_, ?_⟩
  · exact rows_run hrows calls
  · intro more i row hrow
    rw [afterCommits_append]
    exact row_run hrow more

end Ledger
end CarbonLedger
