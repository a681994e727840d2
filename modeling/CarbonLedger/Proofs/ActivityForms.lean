import CarbonLedger.Proofs.EvaluationCases
import CarbonLedger.Proofs.StoredActivities

/-! Inputs beside the name of their kind are put by until the kind is known, and what was put by is
read more freely than inputs of a kind known before. -/

namespace CarbonLedger

def Value.IsNameBesideTable (v : Value) : Prop := ∃ s, v = .table [(s, .table [])]

def Value.HasNumberedUnit (v : Value) : Prop := ∃ w ∈ v.field? 0 "unit", ∃ n, w = .int n

namespace Checked

variable {α β : Type}

def isSound : Checked α → Bool
  | .sound _ => true
  | .faulty _ => false

@[simp]
theorem isSound_map (g : α → β) (x : Checked α) : (g <$> x).isSound = x.isSound := by
  cases x <;> rfl

@[simp]
theorem isSound_seq (f : Checked (α → β)) (x : Checked α) :
    (f <*> x).isSound = (f.isSound && x.isSound) := by
  cases f <;> cases x <;> rfl

end Checked

namespace Reader

variable {α : Type} {P : Value → Prop} {read wide : Reader α}

/-- A reader that reads as another one does, but refuses the values with the property `P`. -/
structure Narrows (P : Value → Prop) (read wide : Reader α) : Prop where
  same : ∀ {v}, ¬ P v → read v = wide v
  refused : ∀ {v}, P v → ∀ a, read v ≠ .ok a

theorem Narrows.nullable (h : Narrows P read wide) (hnull : ¬ P .null) :
    Narrows P (nullable read) (nullable wide) where
  same {v} hv := by
    by_cases hne : v = .null
    · rw [hne]
      rfl
    · rw [nullable_of_ne_null hne, nullable_of_ne_null hne, h.same hv]
  refused {v} hv a ha := by
    have hne : v ≠ .null := fun he => hnull (he ▸ hv)
    rw [nullable_of_ne_null hne, map_eq_ok] at ha
    obtain ⟨b, hb, _⟩ := ha
    exact h.refused hv b hb

section Fields
variable {fields : Fields} {place : Nat} {key : String} {unnamed unplaced : Option α}

/-- A field whose value is not in `P` reads the same through both readers. -/
theorem Narrows.look_eq (h : Narrows P read wide)
    (hv : ∀ v ∈ fields.get? place key, ¬ P v) :
    fields.look place key read unnamed unplaced = fields.look place key wide unnamed unplaced :=
  Fields.look_congr fun v hget => h.same (hv v hget)

theorem Narrows.isSound_look (h : Narrows P read wide) (hv : ∃ v ∈ fields.get? place key, P v) :
    (fields.look place key read unnamed unplaced).isSound = false := by
  obtain ⟨v, hget, hP⟩ := hv
  cases hlook : fields.look place key read unnamed unplaced with
  | sound a => exact absurd ((Fields.look_eq_sound_iff hget).mp hlook) (h.refused hP a)
  | faulty e => rfl

end Fields

theorem acceptsBeside_eq {v : Value} (h : v ≠ .table []) :
    Setting.acceptsBeside (.onTheSpot .json) v = Setting.acceptsBeside (.putBy .json) v := by
  cases v with
  | table entries =>
    cases entries with
    | nil => exact absurd rfl h
    | cons e r => rfl
  | _ => rfl

section Names
variable [Cases α]

/-- A name with an empty table beside it is a case only after it was put by. -/
theorem case_narrows :
    Narrows Value.IsNameBesideTable (case (α := α) (.onTheSpot .json)) (case (.putBy .json)) where
  same {v} hv := by
    rw [case.eq_def, case.eq_def]
    split
    · rfl
    · next s beside =>
      have hbeside : beside ≠ .table [] := by
        rintro rfl
        exact hv ⟨s, rfl⟩
      rw [acceptsBeside_eq hbeside]
    · rfl
    · rfl
  refused {v} hv a ha := by
    obtain ⟨s, rfl⟩ := hv
    rw [case, bind_eq_ok] at ha
    obtain ⟨b, _, hb⟩ := ha
    cases hb

/-- A whole number is a tag only after it was put by. -/
theorem tag_narrows :
    Narrows (fun v => ∃ n, v = .int n) (tag (α := α) (.onTheSpot .json)) (tag (.putBy .json)) where
  same {v} hv := by
    cases v with
    | int n => exact absurd ⟨n, rfl⟩ hv
    | _ => rfl
  refused {v} hv a ha := by
    obtain ⟨n, rfl⟩ := hv
    rw [tag] at ha
    split at ha
    · next hplace => cases hplace
    · cases ha

/-- A tag within a table may be a number only in a value that was put by. -/
theorem taggedWithin_narrows (wanted key : String) :
    Narrows (fun v => ∃ w ∈ v.field? 0 key, ∃ n, w = .int n)
      (taggedWithin (α := α) (.onTheSpot .json) wanted key)
      (taggedWithin (.putBy .json) wanted key) where
  same {v} hv := by
    cases v with
    | table entries =>
      rw [taggedWithin, taggedWithin]
      cases hw : findEntry key entries with
      | none => rfl
      | some w => simp only [tag_narrows.same fun h => hv ⟨w, hw, h⟩]
    | list items =>
      cases items with
      | nil => rfl
      | cons w rest =>
        rw [taggedWithin, taggedWithin, tag_narrows.same fun h => hv ⟨w, rfl, h⟩]
    | _ => rfl
  refused {v} hv a ha := by
    obtain ⟨w, hw, hint⟩ := hv
    cases v with
    | table entries =>
      rw [Value.field?, Option.mem_def] at hw
      simp only [taggedWithin, hw] at ha
      obtain ⟨b, hb, _⟩ := bind_eq_ok.mp ha
      exact tag_narrows.refused hint b hb
    | list items =>
      cases items with
      | nil => cases hw
      | cons w' rest =>
        cases hw
        rw [taggedWithin, bind_eq_ok] at ha
        obtain ⟨b, hb, _⟩ := ha
        exact tag_narrows.refused hint b hb
    | _ => cases hw

end Names

/-- A record is read on the spot exactly if it is read after it was put by, and none of its fields
is one that is refused on the spot. -/
theorem record_eq_ok_iff {wanted : String} {size : Nat} {build later : Fields → Checked α}
    {v : Value}
    (same : ∀ fields, (∀ place key, fields.get? place key = v.field? place key) →
      ¬ P v → build fields = later fields)
    (refused : ∀ fields, (∀ place key, fields.get? place key = v.field? place key) →
      P v → (build fields).isSound = false) (a : α) :
    record (.onTheSpot .json) wanted size build v = .ok a ↔
      record (.putBy .json) wanted size later v = .ok a ∧ ¬ P v := by
  by_cases hP : P v
  · refine iff_of_false ?_ fun h => h.2 hP
    intro h
    obtain ⟨fields, hv, hsound⟩ := exists_fields_of_record h
    have hfaulty := refused fields hv hP
    rw [hsound] at hfaulty
    cases hfaulty
  · rw [and_iff_left hP]
    cases v with
    | table entries =>
      rw [record_table, record_table, same (.named entries) (fun _ _ => rfl) hP]
    | list items =>
      rw [record, record, same (.placed wanted size items) (fun _ _ => rfl) hP]
      cases later (.placed wanted size items) with
      | faulty e => simp [bind, Except.bind]
      | sound b =>
        simp only [Checked.result_sound, bind, Except.bind, Setting.surplus?]
        by_cases hlength : items.length ≤ size
        · simp only [if_pos hlength]
        · simp [if_neg hlength]
    | _ => simp [record]

end Reader

/-- The two readers of a usage differ on numbered units alone. -/
theorem Usage.read_narrows :
    Reader.Narrows Value.HasNumberedUnit (read (.onTheSpot .json)) (read (.putBy .json)) where
  same {v} hv := by rw [read, read, (Reader.taggedWithin_narrows _ _).same hv]; rfl
  refused {v} hv u hu := by
    rw [read, bind_eq_ok] at hu
    obtain ⟨b, hb, _⟩ := hu
    exact (Reader.taggedWithin_narrows _ _).refused hv b hb

namespace Activity

/-- Inputs in a form that is read only after they were put by. -/
def OnlyPutBy : RecordKind → Value → Prop
  | .equipment, v => (∃ w ∈ v.field? 3 "status", w.IsNameBesideTable) ∨
      ∃ w ∈ v.field? 4 "usage", w.HasNumberedUnit
  | .travel, v => ∃ w ∈ v.field? 3 "cabin_class", w.IsNameBesideTable
  | _, _ => False

end Activity

/-- Equipment is read on the spot as it is when put by, but for the forms that are taken only
then. -/
theorem EquipmentUse.read_eq_ok_iff (v : Value) (u : EquipmentUse) :
    read (.onTheSpot .json) v = .ok u ↔
      read (.putBy .json) v = .ok u ∧ ¬ Activity.OnlyPutBy .equipment v := by
  rw [read, read]
  apply Reader.record_eq_ok_iff
  · intro fields hv hnot
    simp only [Activity.OnlyPutBy, ← hv, not_or] at hnot
    have hstatus : fields.required 3 "status" (Reader.case (α := EquipmentStatus)
        (.onTheSpot .json)) = fields.required 3 "status" (Reader.case (.putBy .json)) :=
      Reader.case_narrows.look_eq fun w hw h => hnot.1 ⟨w, hw, h⟩
    have husage : fields.required 4 "usage" (Usage.read (.onTheSpot .json)) =
        fields.required 4 "usage" (Usage.read (.putBy .json)) :=
      Usage.read_narrows.look_eq fun w hw h => hnot.2 ⟨w, hw, h⟩
    simp only [hstatus, husage]
  · intro fields hv hrefused
    simp only [Activity.OnlyPutBy, ← hv] at hrefused
    rcases hrefused with hrefused | hrefused
    · have hstatus : (fields.required 3 "status" (Reader.case (α := EquipmentStatus)
          (.onTheSpot .json))).isSound = false := Reader.case_narrows.isSound_look hrefused
      simp [hstatus]
    · have husage : (fields.required 4 "usage" (Usage.read (.onTheSpot .json))).isSound = false :=
        Usage.read_narrows.isSound_look hrefused
      simp [husage]

/-- A trip is read on the spot as it is when put by, but for the forms that are taken only then. -/
theorem Trip.read_eq_ok_iff (v : Value) (t : Trip) :
    read (.onTheSpot .json) v = .ok t ↔
      read (.putBy .json) v = .ok t ∧ ¬ Activity.OnlyPutBy .travel v := by
  have hnarrows : Reader.Narrows Value.IsNameBesideTable
      (Reader.nullable (Reader.case (α := CabinClass) (.onTheSpot .json)))
      (Reader.nullable (Reader.case (.putBy .json))) :=
    Reader.case_narrows.nullable (by simp [Value.IsNameBesideTable])
  rw [read, read]
  apply Reader.record_eq_ok_iff
  · intro fields hv hnot
    simp only [Activity.OnlyPutBy, ← hv] at hnot
    have hcabin : fields.optional 3 "cabin_class" (Reader.case (α := CabinClass)
        (.onTheSpot .json)) = fields.optional 3 "cabin_class" (Reader.case (.putBy .json)) :=
      hnarrows.look_eq fun w hw h => hnot ⟨w, hw, h⟩
    simp only [hcabin]
  · intro fields hv hrefused
    simp only [Activity.OnlyPutBy, ← hv] at hrefused
    have hcabin : (fields.optional 3 "cabin_class" (Reader.case (α := CabinClass)
        (.onTheSpot .json))).isSound = false := hnarrows.isSound_look hrefused
    simp [hcabin]

theorem map_eq_ok_iff_and {α β ε : Type} {g : α → β} {x y : Except ε α} {p : Prop}
    (h : ∀ a, x = .ok a ↔ y = .ok a ∧ p) (b : β) : g <$> x = .ok b ↔ g <$> y = .ok b ∧ p := by
  rw [map_eq_ok, map_eq_ok]
  constructor
  · rintro ⟨a, ha, hb⟩
    exact ⟨⟨a, ((h a).mp ha).1, hb⟩, ((h a).mp ha).2⟩
  · rintro ⟨⟨a, ha, hb⟩, hp⟩
    exact ⟨a, (h a).mpr ⟨ha, hp⟩, hb⟩

namespace Activity

/-- On the spot the inputs of every kind are read as after they were put by, but for the forms that
are refused. -/
theorem readInputs_eq_ok_iff (kind : RecordKind) (v : Value) (a : Activity) :
    readInputs (.onTheSpot .json) kind v = .ok a ↔
      readInputs (.putBy .json) kind v = .ok a ∧ ¬ OnlyPutBy kind v := by
  have hplain {α : Type} (wanted : String) (size : Nat) (build : Fields → Checked α) (b : α) :
      Reader.record (.onTheSpot .json) wanted size build v = .ok b ↔
        Reader.record (.putBy .json) wanted size build v = .ok b ∧ ¬ False :=
    Reader.record_eq_ok_iff (P := fun _ => False) (fun _ _ _ => rfl) (fun _ _ => False.elim) b
  cases kind with
  | equipment => exact map_eq_ok_iff_and (EquipmentUse.read_eq_ok_iff v) a
  | travel => exact map_eq_ok_iff_and (Trip.read_eq_ok_iff v) a
  | headcount => exact map_eq_ok_iff_and (hplain _ _ _) a
  | externalCloud => exact map_eq_ok_iff_and (hplain _ _ _) a
  | externalAi => exact map_eq_ok_iff_and (hplain _ _ _) a

def tagged (recordType : String) (inputs : Value) : Value :=
  .ofEntries [("record_type", .text recordType), ("inputs", inputs)]

/-- Both forms of a tagged activity read the type first and then the inputs of that type. -/
theorem read_tagged (setting : Setting) (recordType : String) (inputs : Value) :
    read setting (tagged recordType inputs) =
      Reader.caseNamed recordType >>= fun kind => readInputs setting.later kind inputs := by
  rw [tagged, Value.ofEntries_eq_ofPresent, Value.ofPresent_eq_written, read]
  simp [Reader.case]

/-- An activity is decoded from its inputs alone exactly if it is read from the same inputs beside
the name of their kind, unless they are in a form that is read only after they were put by. -/
theorem decode_eq_ok_iff_read_tagged (recordType : String) (inputs : Value) (a : Activity) :
    decode recordType inputs = .ok a ↔
      read (.onTheSpot .json) (tagged recordType inputs) = .ok a ∧
        ∀ kind, Cases.ofName? recordType = some kind → ¬ OnlyPutBy kind inputs := by
  rw [read_tagged, decode, Reader.caseNamed]
  cases hkind : Cases.ofName? (α := RecordKind) recordType with
  | none => simp [bind, Except.bind]
  | some kind =>
    have hforms : (∀ k, some kind = some k → ¬ OnlyPutBy k inputs) ↔ ¬ OnlyPutBy kind inputs := by
      simp
    rw [hforms]
    exact mapError_eq_ok.trans (readInputs_eq_ok_iff kind inputs a)

def secondClassTrip : Value :=
  .table [
    ("cabin_class", .table [("class_2", .table [])]),
    ("destination_location_id", .int 2),
    ("number_of_trips", .int 1),
    ("origin_location_id", .int 1),
    ("transport_mode", .text "train")]

/-- Beside its kind the trip is read; its inputs alone are refused. -/
theorem second_class_beside_table :
    read (.onTheSpot .json) (tagged "travel" secondClassTrip) =
        .ok (.travel ⟨1, 2, "train", some .class2, 1⟩) ∧
      ∃ e, decode "travel" secondClassTrip = .error e := ⟨rfl, _, rfl⟩

end Activity

end CarbonLedger
