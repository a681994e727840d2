import CarbonLedger.Ledger.Store
import CarbonLedger.Proofs.WrittenRecords

namespace CarbonLedger

instance : Cases.Lawful RecordKind := ⟨by intro a; cases a <;> rfl⟩

instance : Cases.Lawful EquipmentStatus := ⟨by intro a; cases a <;> rfl⟩

instance : Cases.Lawful Usage.Unit := ⟨by intro a; cases a <;> rfl⟩

instance : Cases.Lawful CabinClass := ⟨by intro a; cases a <;> rfl⟩

namespace Usage

def numbers : Usage → List Float
  | .hours active passive => [active, passive]
  | .percent active passive => [active, passive]

/-- Two numbers that a record needs. Whichever of them is told of, null was found in its place. -/
theorem result_of_two_floats {α : Type} (f : Float → Float → α) (j k : String) (x y : Float) :
    (f <$> Checked.ofRead j (Reader.float (.ofFloat x))
      <*> Checked.ofRead k (Reader.float (.ofFloat y))).result =
      if [x, y].all Float.isFinite then .ok (f x y) else .error (.kind .null "f64") := by
  cases hx : x.isFinite <;> cases hy : y.isFinite <;> simp [hx, hy]

theorem read_toValue (setting : Setting) (u : Usage) :
    read setting u.toValue =
      if u.numbers.all Float.isFinite then .ok u else .error (.kind .null "f64") := by
  cases u with
  | hours active passive =>
    rw [toValue, Value.ofEntries_eq_ofPresent, read,
      Reader.taggedWithin_written (a := Unit.hours) rfl, numbers,
      ← result_of_two_floats hours "active_hours_per_week" "passive_hours_per_week"]
    simp [bind, Except.bind, readIn]
  | percent active passive =>
    rw [toValue, Value.ofEntries_eq_ofPresent, read,
      Reader.taggedWithin_written (a := Unit.percent) rfl, numbers,
      ← result_of_two_floats percent "active_percent" "passive_percent"]
    simp [bind, Except.bind, readIn]

end Usage

namespace EquipmentUse

def withFiniteRatings (u : EquipmentUse) : EquipmentUse :=
  { u with
    activeW := u.activeW.filter Float.isFinite
    standbyW := u.standbyW.filter Float.isFinite }

theorem read_toValue (setting : Setting) (u : EquipmentUse) :
    read setting u.toValue =
      if u.usage.numbers.all Float.isFinite then .ok u.withFiniteRatings
      else .error (.kind .null "f64") := by
  rw [toValue, read, Reader.record_ofEntries]
  by_cases hu : u.usage.numbers.all Float.isFinite = true
  · have husage (later : Setting) : Usage.read later u.usage.toValue = .ok u.usage := by
      rw [Usage.read_toValue, if_pos hu]
    rw [if_pos hu]
    simp [husage, withFiniteRatings]
  · have husage (later : Setting) :
        Usage.read later u.usage.toValue = .error (.kind .null "f64") := by
      rw [Usage.read_toValue, if_neg hu]
    rw [if_neg hu]
    simp [husage]

end EquipmentUse

theorem Trip.read_toValue (setting : Setting) (t : Trip) : read setting t.toValue = .ok t := by
  rw [toValue, read, Reader.record_ofEntries]
  simp

theorem Headcount.read_toValue (setting : Setting) (h : Headcount) :
    read setting h.toValue =
      if h.positions.isFinite then .ok h else .error (.kind .null "f64") := by
  rw [toValue, read, Reader.record_ofEntries]
  cases hp : h.positions.isFinite <;> simp [hp]

theorem CloudSpend.read_toValue (setting : Setting) (s : CloudSpend) :
    read setting s.toValue =
      if s.amount.isFinite then .ok s else .error (.kind .null "f64") := by
  rw [toValue, read, Reader.record_ofEntries]
  cases ha : s.amount.isFinite <;> simp [ha]

theorem ModelUse.read_toValue (setting : Setting) (u : ModelUse) :
    read setting u.toValue =
      if u.requestsPerDay.isFinite then .ok u else .error (.kind .null "f64") := by
  rw [toValue, read, Reader.record_ofEntries]
  cases hr : u.requestsPerDay.isFinite <;> simp [hr]

theorem map_accepted {α β ε : Type} (f : α → β) (accepted : Bool) (a : α) (e : ε) :
    f <$> (if accepted then Except.ok a else .error e) =
      if accepted then Except.ok (f a) else .error e := by
  cases accepted <;> rfl

namespace Activity

/-- The numbers that the stored form of an activity cannot do without. -/
def needed : Activity → List Float
  | .equipment u => u.usage.numbers
  | .travel _ => []
  | .headcount h => [h.positions]
  | .externalCloud s => [s.amount]
  | .externalAi u => [u.requestsPerDay]

def ratings : Activity → List Float
  | .equipment u => u.activeW.toList ++ u.standbyW.toList
  | _ => []

def numbers (a : Activity) : List Float := a.needed ++ a.ratings

def withFiniteRatings : Activity → Activity
  | .equipment u => .equipment u.withFiniteRatings
  | a => a

/-- Every kind of activity is read back under its own kind, and without the ratings that are not
finite. -/
theorem readInputs_inputs (setting : Setting) (a : Activity) :
    readInputs setting a.kind a.inputs =
      if a.needed.all Float.isFinite then .ok a.withFiniteRatings
      else .error (.kind .null "f64") := by
  cases a with
  | equipment u =>
    change equipment <$> EquipmentUse.read setting u.toValue = _
    rw [EquipmentUse.read_toValue, map_accepted]
    rfl
  | travel t =>
    change travel <$> Trip.read setting t.toValue = _
    rw [Trip.read_toValue]
    rfl
  | headcount h =>
    change headcount <$> Headcount.read setting h.toValue = _
    rw [Headcount.read_toValue, map_accepted, needed, List.all_cons, List.all_nil, Bool.and_true]
    rfl
  | externalCloud s =>
    change externalCloud <$> CloudSpend.read setting s.toValue = _
    rw [CloudSpend.read_toValue, map_accepted, needed, List.all_cons, List.all_nil, Bool.and_true]
    rfl
  | externalAi u =>
    change externalAi <$> ModelUse.read setting u.toValue = _
    rw [ModelUse.read_toValue, map_accepted, needed, List.all_cons, List.all_nil, Bool.and_true]
    rfl

/-- The inputs of an activity decode unless a number they need is not finite. -/
theorem decode_inputs (a : Activity) :
    decode (Cases.name a.kind) a.inputs =
      if a.needed.all Float.isFinite then .ok a.withFiniteRatings
      else .error (.invalidInputs a.kind (.kind .null "f64")) := by
  rw [decode, Cases.Lawful.ofName?_name]
  simp only [readInputs_inputs]
  split <;> rfl

/-- An activity keeps its ratings exactly if all of them are finite. -/
theorem withFiniteRatings_eq_iff (a : Activity) :
    a.withFiniteRatings = a ↔ ∀ x ∈ a.ratings, x.isFinite = true := by
  cases a with
  | equipment u =>
    simp only [withFiniteRatings, equipment.injEq, EquipmentUse.withFiniteRatings, ratings,
      List.forall_mem_append, ← filter_isFinite_eq_self_iff]
    constructor
    · intro h
      exact ⟨congrArg EquipmentUse.activeW h, congrArg EquipmentUse.standbyW h⟩
    · rintro ⟨hactive, hstandby⟩
      rw [hactive, hstandby]
  | _ => simp [withFiniteRatings, ratings]

end Activity

namespace StoredActivity

theorem decode_ofRecord_eq (r : ActivityRecord) :
    (ofRecord r).decode =
      if r.activity.needed.all Float.isFinite then
        .ok { r with activity := r.activity.withFiniteRatings }
      else .error (.invalidInputs r.activity.kind (.kind .null "f64")) := by
  rw [decode, ofRecord, Activity.decode_inputs, map_accepted]

/-- A record whose numbers are all finite is decoded from its stored form as it was, whatever its
kind and whichever of its optional fields it has. -/
theorem decode_ofRecord {r : ActivityRecord} (h : ∀ x ∈ r.activity.numbers, x.isFinite = true) :
    (ofRecord r).decode = .ok r ∧
      Activity.decode (Cases.name r.activity.kind) r.activity.inputs = .ok r.activity := by
  obtain ⟨hneeded, hratings⟩ := List.forall_mem_append.mp h
  have hall : r.activity.needed.all Float.isFinite = true := List.all_eq_true.mpr hneeded
  have hkept : r.activity.withFiniteRatings = r.activity :=
    (Activity.withFiniteRatings_eq_iff r.activity).mpr hratings
  constructor
  · rw [decode_ofRecord_eq, if_pos hall, hkept]
  · rw [Activity.decode_inputs, if_pos hall, hkept]

def press : ActivityRecord :=
  ⟨-7, .equipment ⟨"workshop", "press", some "large", .inStock, .percent 12.5 80.0, some 1500.0,
    none, some "CH"⟩⟩

/-- A press with one rating of its own comes back as it was. -/
theorem decode_stored_press :
    (∀ x ∈ press.activity.numbers, x.isFinite = true) ∧ (ofRecord press).decode = .ok press ∧
      Activity.decode "equipment" press.activity.inputs = .ok press.activity := by
  have hfinite : ∀ x ∈ press.activity.numbers, x.isFinite = true := by decide +kernel
  exact ⟨hfinite, decode_ofRecord hfinite⟩

end StoredActivity

namespace Ledger

/-- Every record is stored in place of its subject's activity, whatever its numbers. What is stored
stands for the record exactly if all its numbers are finite: without a number that is needed it
cannot be decoded, and else it stands for the record without its unusable ratings. -/
theorem record_stores_any_numbers (l : Ledger) (r : ActivityRecord) :
    ∃ s, (∀ subject, (l.record r).activity? subject =
        if subject = r.subject then some s else l.activity? subject) ∧
      (l.record r).rows = l.rows ∧
      (s.decode = if r.activity.needed.all Float.isFinite then
          .ok { r with activity := r.activity.withFiniteRatings }
        else .error (.invalidInputs r.activity.kind (.kind .null "f64"))) ∧
      (s.decode = .ok r ↔ ∀ x ∈ r.activity.numbers, x.isFinite = true) := by
  refine ⟨.ofRecord r, activity?_store l _, rfl, StoredActivity.decode_ofRecord_eq r, ?_⟩
  rw [StoredActivity.decode_ofRecord_eq, Activity.numbers, List.forall_mem_append,
    ← List.all_eq_true, ← Activity.withFiniteRatings_eq_iff]
  by_cases hneeded : r.activity.needed.all Float.isFinite = true
  · rw [if_pos hneeded, Except.ok.injEq]
    constructor
    · intro h
      exact ⟨hneeded, congrArg ActivityRecord.activity h⟩
    · rintro ⟨_, hkept⟩
      rw [hkept]
  · rw [if_neg hneeded]
    constructor
    · nofun
    · rintro ⟨h, _⟩
      exact absurd h hneeded

def heater : ActivityRecord :=
  ⟨3, .equipment ⟨"office", "heater", none, .inService, .hours 40.0 0.0, some Decimal.notANumber,
    none, none⟩⟩

/-- The heater is stored, and comes back without its rating. -/
theorem heater_is_stored_without_rating :
    (∃ x ∈ heater.activity.numbers, x.isFinite = false) ∧
      ∃ s, (empty.record heater).activity? heater.subject = some s ∧
        s.decode = .ok ⟨3, .equipment
          ⟨"office", "heater", none, .inService, .hours 40.0 0.0, none, none, none⟩⟩ ∧
        s.decode ≠ .ok heater := by
  have hnan : Decimal.notANumber.isFinite = false := by decide +kernel
  have hneeded : heater.activity.needed.all Float.isFinite = true := by decide +kernel
  have hdecode : (StoredActivity.ofRecord heater).decode = .ok ⟨3, .equipment
      ⟨"office", "heater", none, .inService, .hours 40.0 0.0, none, none, none⟩⟩ := by
    rw [StoredActivity.decode_ofRecord_eq, if_pos hneeded]
    simp [heater, Activity.withFiniteRatings, EquipmentUse.withFiniteRatings, hnan]
  refine ⟨⟨Decimal.notANumber, by simp [heater, Activity.numbers, Activity.ratings], hnan⟩,
    .ofRecord heater, rfl, hdecode, ?_⟩
  rw [hdecode]
  simp [heater]

end Ledger

end CarbonLedger
