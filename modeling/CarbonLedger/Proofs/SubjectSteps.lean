import CarbonLedger.Proofs.EvaluationCases
import CarbonLedger.Proofs.RunTimes

/-! What taking one subject does. A run stops for no other reasons than those of `Ledger.Fails`. -/

namespace CarbonLedger

theorem findEntry_eq_none_iff {α : Type} {key : String} {entries : List (String × α)} :
    findEntry key entries = none ↔ ∀ e ∈ entries, e.1 ≠ key := by
  induction entries with
  | nil => simp [findEntry]
  | cons e r ih =>
    rw [findEntry, List.forall_mem_cons, ← ih]
    by_cases h : key = e.1
    · simp [h]
    · simp [h, Ne.symm h]

theorem ofName?_eq_none_iff {s : String} :
    (Cases.ofName? s : Option RecordKind) = none ↔ ∀ k : RecordKind, Cases.name k ≠ s := by
  rw [Cases.ofName?, findEntry_eq_none_iff]
  constructor
  · intro h k
    apply h (Cases.name k, k)
    cases k <;> decide
  · intro h e he
    have hread : ∀ e ∈ Cases.readable (α := RecordKind), e.1 = Cases.name e.2 := by decide
    rw [hread e he]
    exact h e.2

namespace Activity

theorem decode_eq_unknownKind_iff {recordType kind : String} (inputs : Value) :
    decode recordType inputs = .error (.unknownKind kind) ↔
      recordType = kind ∧ ∀ k : RecordKind, Cases.name k ≠ recordType := by
  rw [← ofName?_eq_none_iff, decode]
  cases Cases.ofName? (α := RecordKind) recordType with
  | none => simp
  | some k => simp [mapError_eq_error]

end Activity

namespace StoredActivity

theorem decode_eq_unknownKind_iff {s : StoredActivity} {kind : String} :
    s.decode = .error (.unknownKind kind) ↔
      s.recordType = kind ∧ ∀ k : RecordKind, Cases.name k ≠ s.recordType := by
  rw [← Activity.decode_eq_unknownKind_iff s.inputs, decode]
  cases Activity.decode s.recordType s.inputs <;> simp [Functor.map, Except.map]

theorem subject_of_decode {s : StoredActivity} {r : ActivityRecord} (h : s.decode = .ok r) :
    r.subject = s.subject := by
  rw [decode] at h
  cases hd : Activity.decode s.recordType s.inputs with
  | error e =>
    rw [hd] at h
    cases h
  | ok a =>
    rw [hd] at h
    cases h
    rfl

end StoredActivity

theorem Coordinates.checked_eq_ok_iff {c d : Coordinates} :
    c.checked = .ok d ↔ c.onGlobe = true ∧ c = d := by
  rw [checked]
  split
  · next h => simp [h]
  · next h => simp [h]

theorem Coordinates.checked_eq_error_iff {c : Coordinates} {e : OffTheGlobe} :
    c.checked = .error e ↔ c.onGlobe = false ∧ e = ⟨c⟩ := by
  rw [checked]
  split
  · next h => simp [h]
  · next h => simp [h, eq_comm]

theorem Location.greatCircleKm_eq_error_iff {origin destination : Location} {e : OffTheGlobe} :
    origin.greatCircleKm destination = .error e ↔
      ∃ off, [origin, destination].find? (fun p => !p.coordinates.onGlobe) = some off ∧
        e = ⟨off.coordinates⟩ := by
  rw [greatCircleKm, Coordinates.greatCircleKm]
  simp only [bind_eq_error, Coordinates.checked_eq_ok_iff, Coordinates.checked_eq_error_iff]
  cases ho : origin.coordinates.onGlobe <;> cases hd : destination.coordinates.onGlobe <;>
    simp [ho, hd, pure, Except.pure]

namespace Basis

/-- Why a trip cannot be evaluated: its mode is unknown, or both of its ends are known and one of
them is off the globe. -/
inductive TripFails (b : Basis) (t : Trip) : TripError → Prop
  | mode {e : UnknownMode} (h : TransportMode.ofText t.mode = .error e) : b.TripFails t (.mode e)
  | place {mode : TransportMode} {origin destination off : Location}
      (hmode : TransportMode.ofText t.mode = .ok mode)
      (horigin : b.directory.find? t.origin = some origin)
      (hdestination : b.directory.find? t.destination = some destination)
      (hoff : [origin, destination].find? (fun p => !p.coordinates.onGlobe) = some off) :
    b.TripFails t (.place ⟨off.coordinates⟩)

section Trips
variable {b : Basis} {t : Trip} {origin destination : Location} {e : TripError}

theorem flight_eq_error_iff :
    b.flight t origin destination = .error e ↔
      ∃ p, origin.greatCircleKm destination = .error p ∧ e = .place p := by
  rw [flight, TransportMode.distance]
  cases hcircle : origin.greatCircleKm destination with
  | error p => simp [Functor.map, Except.map, mapError_error, bind, Except.bind, eq_comm]
  | ok km =>
    simp [Functor.map, Except.map, mapError_ok, bind, Except.bind, pure, Except.pure,
      Trip.calculateFlight, hcircle]

theorem train_eq_error_iff :
    b.train t origin destination = .error e ↔
      ∃ p, origin.greatCircleKm destination = .error p ∧ e = .place p := by
  rw [train]
  cases hcircle : origin.greatCircleKm destination with
  | error p =>
    simp [mapError_error, bind, Except.bind, Trip.calculateTrain, hcircle, eq_comm]
  | ok km =>
    simp [mapError_ok, bind, Except.bind, pure, Except.pure, Trip.calculateTrain, hcircle]

theorem travel_eq_error_iff : b.travel t = .error e ↔ b.TripFails t e := by
  constructor
  · intro h
    rw [travel, bind_eq_error] at h
    rcases h with hmode | ⟨mode, hmode, h⟩
    · obtain ⟨u, hu, rfl⟩ := mapError_eq_error.mp hmode
      exact .mode hu
    · have hmode := mapError_eq_ok.mp hmode
      split at h
      · cases h
      · next origin horigin =>
        split at h
        · cases h
        · next destination hdestination =>
          have hplace : ∃ p, origin.greatCircleKm destination = .error p ∧ e = .place p := by
            cases mode with
            | plane => exact flight_eq_error_iff.mp h
            | train => exact train_eq_error_iff.mp h
          obtain ⟨p, hp, rfl⟩ := hplace
          obtain ⟨off, hoff, rfl⟩ := Location.greatCircleKm_eq_error_iff.mp hp
          exact .place hmode horigin hdestination hoff
  · intro h
    cases h with
    | mode hu =>
      rw [travel, bind_eq_error]
      exact Or.inl (mapError_eq_error.mpr ⟨_, hu, rfl⟩)
    | @place mode origin destination off hmode horigin hdestination hoff =>
      have hplace := Location.greatCircleKm_eq_error_iff.mpr ⟨off, hoff, rfl⟩
      rw [travel_of_found horigin hdestination mode hmode]
      cases mode with
      | plane => exact flight_eq_error_iff.mpr ⟨_, hplace, rfl⟩
      | train => exact train_eq_error_iff.mpr ⟨_, hplace, rfl⟩

/-- Only trips can fail to be evaluated. -/
theorem evaluate_eq_error_iff {r : ActivityRecord} {computedAt : Instant} :
    b.evaluate r computedAt = .error e ↔ ∃ t, r.activity = .travel t ∧ b.TripFails t e := by
  rw [evaluate, bind_eq_error]
  have hpure (o : Outcome) : (pure ⟨o.calculations.map (·.toEmission r.subject computedAt),
      o.ambiguities⟩ : Except TripError Evaluation) ≠ .error e := fun h => by cases h
  cases r.activity with
  | travel t => simp [outcome, travel_eq_error_iff, hpure]
  | _ => simp [outcome, pure, Except.pure]

end Trips

end Basis

namespace Ledger

def Decodes (l : Ledger) (subject : Int64) (r : ActivityRecord) : Prop :=
  ∃ stored, l.activity? subject = some stored ∧ stored.decode = .ok r

inductive Fails (l : Ledger) (b : Basis) (requireComplete : Bool) (computedAt : Instant)
    (subject : Int64) : RunError → Prop
  | noFormula {stored : StoredActivity} (h : l.activity? subject = some stored)
      (hkind : ∀ k : RecordKind, Cases.name k ≠ stored.recordType) :
    l.Fails b requireComplete computedAt subject (.noFormula subject stored.recordType)
  | trip {r : ActivityRecord} {t : Trip} {e : TripError} (h : l.Decodes subject r)
      (htrip : r.activity = .travel t) (hfails : b.TripFails t e) :
    l.Fails b requireComplete computedAt subject (.trip e)
  | incomplete {r : ActivityRecord} {e : Evaluation} {m : Emission} {gap : String}
      (hrequired : requireComplete = true) (h : l.Decodes subject r)
      (he : b.evaluate r computedAt = .ok e)
      (hm : e.emissions.find? (fun m => !m.isComplete) = some m) (hgap : m.gap? = some gap) :
    l.Fails b requireComplete computedAt subject (.unresolved gap)

inductive Takes (l : Ledger) (b : Basis) (requireComplete : Bool) (computedAt : Instant)
    (subject : Int64) : Except RunError (Ledger × Report) → Prop
  | missing (h : l.activity? subject = none) :
    l.Takes b requireComplete computedAt subject
      (.ok (l, { Report.empty with missing := [subject] }))
  | invalid {stored : StoredActivity} {e : ActivityError} (h : l.activity? subject = some stored)
      (hdecode : stored.decode = .error e) :
    l.Takes b requireComplete computedAt subject
      (.ok (l, { Report.empty with invalid := [⟨subject, e.message⟩] }))
  | incomplete {r : ActivityRecord} {e : Evaluation} (h : l.Decodes subject r)
      (he : b.evaluate r computedAt = .ok e) (hgaps : ∀ m ∈ e.emissions, m.isComplete = false) :
    l.Takes b requireComplete computedAt subject
      (.ok (l, ⟨[], e.emissions, [], [], e.ambiguities.map (subject, ·)⟩))
  | complete {r : ActivityRecord} {e : Evaluation} (h : l.Decodes subject r)
      (he : b.evaluate r computedAt = .ok e) (hcomplete : ∀ m ∈ e.emissions, m.isComplete = true) :
    l.Takes b requireComplete computedAt subject
      (.ok (l.replace e.emissions,
        ⟨e.emissions.map Emission.asCurrent, [], [], [], e.ambiguities.map (subject, ·)⟩))
  | fails {e : RunError} (h : l.Fails b requireComplete computedAt subject e) :
    l.Takes b requireComplete computedAt subject (.error e)

section Subject
variable {l : Ledger} {b : Basis} {requireComplete : Bool} {computedAt : Instant} {subject : Int64}

/-- The emissions of an evaluation pass the check when all are complete. -/
theorem check_of_evaluate {r : ActivityRecord} {e : Evaluation}
    (he : b.evaluate r computedAt = .ok e) (hcomplete : ∀ m ∈ e.emissions, m.isComplete = true) :
    check e.emissions = .ok () := by
  have hkinds := List.pairwise_map.mp (Basis.nodup_kinds he)
  refine check_eq_ok_iff.mpr ⟨hcomplete, List.pairwise_map.mpr (hkinds.imp ?_)⟩
  intro m n hne heq
  exact hne (congrArg Prod.snd heq)

/-- Complete emissions are committed. -/
theorem settle_of_complete {r : ActivityRecord} {e : Evaluation}
    (he : b.evaluate r computedAt = .ok e) (hcomplete : ∀ m ∈ e.emissions, m.isComplete = true) :
    l.settle requireComplete subject e = .ok (l.replace e.emissions,
      ⟨e.emissions.map Emission.asCurrent, [], [], [], e.ambiguities.map (subject, ·)⟩) := by
  have hcommit : l.commit e.emissions =
      .ok (l.replace e.emissions, e.emissions.map Emission.asCurrent) := by
    rw [commit, Write.outcome, on_put, check_of_evaluate he hcomplete]
  have hall : e.emissions.filter Emission.isComplete = e.emissions :=
    List.filter_eq_self.mpr hcomplete
  have hnone : e.emissions.filter (fun m => !m.isComplete) = [] := by
    apply List.filter_eq_nil_iff.mpr
    intro m hm
    simp [hcomplete m hm]
  have hfirst : e.emissions.find? (fun m => !m.isComplete) = none := by
    rw [← List.head?_filter, hnone]
    rfl
  have hsome : e.emissions.isEmpty = false :=
    List.isEmpty_eq_false_iff.mpr (Basis.emissions_ne_nil he)
  rw [settle_eq, hfirst, ite_self, hall, hnone, commitSome, hsome, hcommit]
  rfl

/-- Incomplete emissions are reported, and the ledger stays as it is. -/
theorem settle_of_incomplete {e : Evaluation} (hgaps : ∀ m ∈ e.emissions, m.isComplete = false) :
    l.settle false subject e =
      .ok (l, ⟨[], e.emissions, [], [], e.ambiguities.map (subject, ·)⟩) := by
  have hnone : e.emissions.filter Emission.isComplete = [] := by
    apply List.filter_eq_nil_iff.mpr
    intro m hm
    simp [hgaps m hm]
  have hall : e.emissions.filter (fun m => !m.isComplete) = e.emissions := by
    apply List.filter_eq_self.mpr
    intro m hm
    simp [hgaps m hm]
  rw [settle_eq, hnone, hall]
  rfl

theorem settle_of_gap {e : Evaluation} {m : Emission} {gap : String}
    (hm : e.emissions.find? (fun m => !m.isComplete) = some m) (hgap : m.gap? = some gap) :
    l.settle true subject e = .error (.unresolved gap) := by
  rw [settle_eq, if_pos rfl, hm]
  simp only [hgap, Option.getD_some]

theorem exists_gap {e : Evaluation} (hne : e.emissions ≠ [])
    (hgaps : ∀ m ∈ e.emissions, m.isComplete = false) :
    ∃ m gap, e.emissions.find? (fun m => !m.isComplete) = some m ∧ m.gap? = some gap := by
  obtain ⟨m, r, hmr⟩ := List.exists_cons_of_ne_nil hne
  have hm : m.isComplete = false := hgaps m (hmr ▸ List.mem_cons_self)
  have hgap : m.gap? ≠ none := fun h => by simp [Emission.gap?_eq_none_iff.mp h] at hm
  obtain ⟨gap, hgap⟩ := Option.ne_none_iff_exists'.mp hgap
  exact ⟨m, gap, by rw [hmr, List.find?_cons_of_pos (by simp [hm])], hgap⟩

theorem recalculateOne_of_evaluate {r : ActivityRecord} {e : Evaluation}
    (h : l.Decodes subject r) (he : b.evaluate r computedAt = .ok e) :
    l.recalculateOne b requireComplete computedAt subject = l.settle requireComplete subject e := by
  obtain ⟨stored, hstored, hdecode⟩ := h
  simp only [recalculateOne, hstored, hdecode, he]

theorem recalculateOne_of_tripError {r : ActivityRecord} {e : TripError}
    (h : l.Decodes subject r) (he : b.evaluate r computedAt = .error e) :
    l.recalculateOne b requireComplete computedAt subject = .error (.trip e) := by
  obtain ⟨stored, hstored, hdecode⟩ := h
  simp only [recalculateOne, hstored, hdecode, he]

/-- Every subject is missing or invalid, evaluates to complete emissions or to incomplete ones, or
stops the run. -/
theorem takes (l : Ledger) (b : Basis) (requireComplete : Bool) (computedAt : Instant)
    (subject : Int64) : l.Takes b requireComplete computedAt subject
      (l.recalculateOne b requireComplete computedAt subject) := by
  cases hstored : l.activity? subject with
  | none =>
    rw [recalculateOne, hstored]
    exact .missing hstored
  | some stored =>
    cases hdecode : stored.decode with
    | error e =>
      rw [recalculateOne, hstored]
      cases e with
      | unknownKind recordType =>
        obtain ⟨rfl, hkind⟩ := StoredActivity.decode_eq_unknownKind_iff.mp hdecode
        simp only [hdecode]
        exact .fails (.noFormula hstored hkind)
      | invalidInputs kind cause =>
        simp only [hdecode]
        exact .invalid hstored hdecode
    | ok r =>
      have hr : l.Decodes subject r := ⟨stored, hstored, hdecode⟩
      cases he : b.evaluate r computedAt with
      | error e =>
        obtain ⟨t, htrip, hfails⟩ := Basis.evaluate_eq_error_iff.mp he
        rw [recalculateOne_of_tripError hr he]
        exact .fails (.trip hr htrip hfails)
      | ok e =>
        rw [recalculateOne_of_evaluate hr he]
        -- There is no third case, so nothing is ever committed in part.
        rcases Basis.emissions_complete_alike he with hcomplete | hgaps
        · rw [settle_of_complete he hcomplete]
          exact .complete hr he hcomplete
        · cases requireComplete with
          | false =>
            rw [settle_of_incomplete hgaps]
            exact .incomplete hr he hgaps
          | true =>
            obtain ⟨m, gap, hm, hgap⟩ := exists_gap (Basis.emissions_ne_nil he) hgaps
            rw [settle_of_gap hm hgap]
            exact .fails (.incomplete rfl hr he hm hgap)

/-- Recalculating a subject fails for the reasons in `Fails` alone. -/
theorem recalculateOne_eq_error_iff {e : RunError} :
    l.recalculateOne b requireComplete computedAt subject = .error e ↔
      l.Fails b requireComplete computedAt subject e := by
  constructor
  · intro h
    have htakes := takes l b requireComplete computedAt subject
    rw [h] at htakes
    cases htakes with
    | fails hfails => exact hfails
  · intro h
    cases h with
    | noFormula hstored hkind =>
      have hdecode := StoredActivity.decode_eq_unknownKind_iff.mpr ⟨rfl, hkind⟩
      simp only [recalculateOne, hstored, hdecode]
    | @trip r t e hr htrip hfails =>
      have he : b.evaluate r computedAt = .error e :=
        Basis.evaluate_eq_error_iff.mpr ⟨t, htrip, hfails⟩
      exact recalculateOne_of_tripError hr he
    | incomplete hrequired hr he hm hgap =>
      subst hrequired
      rw [recalculateOne_of_evaluate hr he, settle_of_gap hm hgap]

end Subject

end Ledger

end CarbonLedger
