import CarbonLedger.Factor.Data

/-! Records that are written as tables and read back. Each kind of value is followed by what its
reader makes of it. -/

namespace CarbonLedger

section Steps
variable {ε ε' α β : Type}

theorem bind_eq_ok {x : Except ε α} {f : α → Except ε β} {b : β} :
    x >>= f = .ok b ↔ ∃ a, x = .ok a ∧ f a = .ok b := by
  cases x <;> simp [bind, Except.bind]

theorem bind_eq_error {x : Except ε α} {f : α → Except ε β} {e : ε} :
    x >>= f = .error e ↔ x = .error e ∨ ∃ a, x = .ok a ∧ f a = .error e := by
  cases x <;> simp [bind, Except.bind]

theorem map_eq_ok {f : α → β} {x : Except ε α} {b : β} :
    f <$> x = .ok b ↔ ∃ a, x = .ok a ∧ f a = b := by
  cases x <;> simp [Functor.map, Except.map]

theorem mapError_ok (f : ε → ε') (a : α) : (Except.ok a).mapError f = .ok a := rfl

theorem mapError_error (f : ε → ε') (e : ε) :
    (Except.error e : Except ε α).mapError f = .error (f e) := rfl

theorem mapError_eq_ok {f : ε → ε'} {x : Except ε α} {a : α} :
    x.mapError f = .ok a ↔ x = .ok a := by
  cases x <;> simp [mapError_ok, mapError_error]

theorem mapError_eq_error {f : ε → ε'} {x : Except ε α} {e : ε'} :
    x.mapError f = .error e ↔ ∃ d, x = .error d ∧ f d = e := by
  cases x <;> simp [mapError_ok, mapError_error]

end Steps

namespace Value

def lastGiven (key : String) : List (Option (String × Value)) → Option Value
  | [] => none
  | none :: r => lastGiven key r
  | some e :: r => (lastGiven key r).or (if key = e.1 then some e.2 else none)

def written (given : List (Option (String × Value))) : List (String × Value) :=
  (given.filterMap id).foldl (fun es e => insertEntry e.1 e.2 es) []

@[simp]
theorem lastGiven_nil (key : String) : lastGiven key [] = none := rfl

@[simp]
theorem lastGiven_cons (key j : String) (v : Value) (r : List (Option (String × Value))) :
    lastGiven key (some (j, v) :: r) = (lastGiven key r).or (if key = j then some v else none) :=
  rfl

theorem ofPresent_eq_written (given : List (Option (String × Value))) :
    ofPresent given = .table (written given) := rfl

theorem ofEntries_eq_ofPresent (entries : List (String × Value)) :
    ofEntries entries = ofPresent (entries.map some) := by
  rw [ofPresent, List.filterMap_map]
  simp

theorem findEntry_insertAll (key : String) (given : List (Option (String × Value)))
    (entries : List (String × Value)) :
    findEntry key ((given.filterMap id).foldl (fun es e => insertEntry e.1 e.2 es) entries) =
      (lastGiven key given).or (findEntry key entries) := by
  induction given generalizing entries with
  | nil => rfl
  | cons e r ih =>
    cases e with
    | none => exact ih entries
    | some e =>
      have hgiven : (some e :: r).filterMap id = e :: r.filterMap id := rfl
      rw [hgiven, List.foldl_cons, ih, KeyMap.findEntry_insertEntry, lastGiven, Option.or_assoc]
      split <;> simp

/-- A written table holds the last value given for a key. -/
@[simp]
theorem findEntry_written (key : String) (given : List (Option (String × Value))) :
    findEntry key (written given) = lastGiven key given := by
  rw [written, findEntry_insertAll]
  simp [findEntry]

end Value

/-- Taking the entries of one key away leaves the others. -/
@[simp]
theorem findEntry_filter_ne {α : Type} (key k : String) (entries : List (String × α)) :
    findEntry k (entries.filter fun e => e.1 != key) =
      if k = key then none else findEntry k entries := by
  induction entries with
  | nil => simp [findEntry]
  | cons e r ih =>
    by_cases he : e.1 = key
    · rw [List.filter_cons_of_neg (by simpa using he), ih, findEntry]
      split <;> simp_all
    · rw [List.filter_cons_of_pos (by simpa using he), findEntry, findEntry, ih]
      by_cases hk : k = e.1
      · have hne : k ≠ key := hk ▸ he
        simp [hk, he]
      · simp [hk]

theorem mem_of_findEntry {α : Type} {key : String} {a : α} {entries : List (String × α)}
    (h : findEntry key entries = some a) : (key, a) ∈ entries := by
  induction entries with
  | nil => cases h
  | cons e r ih =>
    rw [findEntry] at h
    split at h
    · next hkey =>
      rw [hkey, ← Option.some.inj h]
      exact List.mem_cons_self
    · exact List.mem_cons_of_mem e (ih h)

/-- A map holds no entries but those that it was made from. -/
theorem KeyMap.mem_of_mem_ofList {α : Type} {e : String × α} {entries : List (String × α)}
    (h : e ∈ (ofList entries).entries) : e ∈ entries := by
  refine List.foldlRecOn (motive := fun m : KeyMap α => ∀ e ∈ m.entries, e ∈ entries) entries _
    (fun e he => absurd he List.not_mem_nil) ?_ e h
  intro m hm a ha e he
  rcases mem_insertEntry he with rfl | he
  · exact ha
  · exact hm e he

namespace Checked

variable {α β : Type}

def ofRead (key : String) : Except Mismatch α → Checked α
  | .ok a => .sound a
  | .error cause => .faulty (.wrong key cause)

@[simp]
theorem ofRead_ok (key : String) (a : α) : ofRead key (.ok a) = .sound a := rfl

@[simp]
theorem ofRead_error (key : String) (cause : Mismatch) :
    ofRead (α := α) key (.error cause) = .faulty (.wrong key cause) := rfl

def ofEntry (key : String) (read : Reader α) (absent : Checked α) : Option Value → Checked α
  | none => absent
  | some v => ofRead key (read v)

@[simp]
theorem ofEntry_none (key : String) (read : Reader α) (absent : Checked α) :
    ofEntry key read absent none = absent := by
  rw [ofEntry]

@[simp]
theorem ofEntry_some (key : String) (read : Reader α) (absent : Checked α) (v : Value) :
    ofEntry key read absent (some v) = ofRead key (read v) := by
  rw [ofEntry]

@[simp]
theorem map_faulty (g : α → β) (e : Fault) : g <$> (faulty e : Checked α) = .faulty e := rfl

@[simp]
theorem sound_seq_faulty (g : α → β) (e : Fault) :
    Checked.sound g <*> (faulty e : Checked α) = .faulty e := rfl

@[simp]
theorem faulty_seq_sound (e : Fault) (a : α) :
    (faulty e : Checked (α → β)) <*> Checked.sound a = .faulty e := rfl

@[simp]
theorem faulty_seq_faulty (e d : Fault) :
    (faulty e : Checked (α → β)) <*> (faulty d : Checked α) = .faulty (e.told d) := rfl

theorem result_eq_ok_iff {x : Checked α} {a : α} : x.result = .ok a ↔ x = .sound a := by
  cases x <;> simp [result]

theorem map_eq_sound_iff {g : α → β} {x : Checked α} {b : β} :
    g <$> x = .sound b ↔ ∃ a, x = .sound a ∧ g a = b := by
  cases x <;> simp

/-- A record is sound if each of its parts is. -/
theorem seq_eq_sound_iff {f : Checked (α → β)} {x : Checked α} {b : β} :
    f <*> x = .sound b ↔ ∃ g, f = .sound g ∧ ∃ a, x = .sound a ∧ g a = b := by
  cases f <;> cases x <;> simp

@[simp]
theorem result_faulty (e : Fault) : (faulty e : Checked α).result = .error e.cause := rfl

end Checked

@[simp]
theorem Fault.cause_wrong (key : String) (cause : Mismatch) : (wrong key cause).cause = cause := rfl

/-- Which of two faults is told does not matter when they have one cause. -/
@[simp]
theorem Fault.cause_told (j k : String) (cause : Mismatch) :
    ((wrong j cause).told (wrong k cause)).cause = cause := by
  rw [told]
  split <;> rfl

def Value.field? (place : Nat) (key : String) : Value → Option Value
  | .table entries => findEntry key entries
  | .list items => items[place]?
  | _ => none

namespace Fields

section Soundness
variable {α : Type} {fields : Fields} {place : Nat} {key : String} {read wide : Reader α}

def get? (place : Nat) (key : String) : Fields → Option Value
  | .named entries => findEntry key entries
  | .placed _ _ items => items[place]?

theorem look_congr {unnamed unplaced : Option α}
    (h : ∀ v, fields.get? place key = some v → read v = wide v) :
    fields.look place key read unnamed unplaced = fields.look place key wide unnamed unplaced := by
  cases fields with
  | named entries =>
    rw [get?] at h
    cases hv : findEntry key entries with
    | none => simp only [look, hv]
    | some v => simp only [look, hv, h v hv]
  | placed wanted size items =>
    rw [get?] at h
    cases hv : items[place]? with
    | none => simp only [look, hv]
    | some v => simp only [look, hv, h v hv]

/-- A field that is given is sound if its value can be read. -/
theorem look_eq_sound_iff {unnamed unplaced : Option α} {v : Value} {a : α}
    (hv : fields.get? place key = some v) :
    fields.look place key read unnamed unplaced = .sound a ↔ read v = .ok a := by
  cases fields <;> rw [get?] at hv <;> simp only [look, hv] <;> cases read v <;> simp

theorem withDefault_of_absent {a : α} (h : fields.get? place key = none) :
    fields.withDefault place key read a = .sound a := by
  cases fields <;> rw [get?] at h <;> simp only [withDefault, look, h]

end Soundness

variable {α : Type} (entries : List (String × Value)) (place : Nat) (key : String)
  (read : Reader α)

/-- A required field of a named table is its entry, or a fault. -/
@[simp]
theorem required_named : (named entries).required place key read =
    .ofEntry key read (.faulty (.absent (.absent key))) (findEntry key entries) := by
  rw [required, look]
  cases findEntry key entries with
  | none => rfl
  | some v => cases h : read v <;> simp [h]

@[simp]
theorem optional_named : (named entries).optional place key read =
    .ofEntry key (Reader.nullable read) (.sound none) (findEntry key entries) := by
  rw [optional, look]
  cases findEntry key entries with
  | none => rfl
  | some v => cases h : Reader.nullable read v <;> simp [h]

@[simp]
theorem withDefault_named (a : α) : (named entries).withDefault place key read a =
    .ofEntry key read (.sound a) (findEntry key entries) := by
  rw [withDefault, look]
  cases findEntry key entries with
  | none => rfl
  | some v => cases h : read v <;> simp [h]

@[simp]
theorem nullable_named : (named entries).nullable place key read =
    (named entries).optional place key read := rfl

end Fields

namespace Reader

@[simp]
theorem record_table {α : Type} (setting : Setting) (wanted : String) (size : Nat)
    (build : Fields → Checked α) (entries : List (String × Value)) :
    record setting wanted size build (.table entries) = (build (.named entries)).result := rfl

/-- A record is read from the fields that were given. -/
theorem record_ofPresent {α : Type} (setting : Setting) (wanted : String) (size : Nat)
    (build : Fields → Checked α) (given : List (Option (String × Value))) :
    record setting wanted size build (.ofPresent given) =
      (build (.named (Value.written given))).result := rfl

theorem record_ofEntries {α : Type} (setting : Setting) (wanted : String) (size : Nat)
    (build : Fields → Checked α) (entries : List (String × Value)) :
    record setting wanted size build (.ofEntries entries) =
      (build (.named (Value.written (entries.map some)))).result := by
  rw [Value.ofEntries_eq_ofPresent, record_ofPresent]

/-- A record that is read is made of sound fields, which its data gives by name or by place. -/
theorem exists_fields_of_record {α : Type} {setting : Setting} {wanted : String} {size : Nat}
    {build : Fields → Checked α} {v : Value} {a : α}
    (h : record setting wanted size build v = .ok a) :
    ∃ fields, (∀ place key, fields.get? place key = v.field? place key) ∧
      build fields = .sound a := by
  cases v with
  | table entries =>
    rw [record_table, Checked.result_eq_ok_iff] at h
    exact ⟨.named entries, fun _ _ => rfl, h⟩
  | list items =>
    rw [record] at h
    obtain ⟨b, hbuild, h⟩ := bind_eq_ok.mp h
    have hb : b = a := by
      split at h
      · cases h
      · exact Except.ok.inj h
    rw [hb, Checked.result_eq_ok_iff] at hbuild
    exact ⟨.placed wanted size items, fun _ _ => rfl, hbuild⟩
  | _ => cases h

@[simp]
theorem text_text (s : String) : text (.text s) = .ok s := rfl

@[simp]
theorem bool_bool (b : Bool) : bool (.bool b) = .ok b := rfl

/-- A double that is not finite is written as null, and null is no double. -/
@[simp]
theorem float_ofFloat (x : Float) :
    float (.ofFloat x) = if x.isFinite then .ok x else .error (.kind .null "f64") := by
  rw [Value.ofFloat]
  split <;> rfl

@[simp]
theorem int64_ofInt64 (n : Int64) : int64 (.ofInt64 n) = .ok n := by
  have hmin : Int64.minValue.toInt ≤ n.toInt := Int64.minValue_le_toInt n
  have hmax : n.toInt ≤ Int64.maxValue.toInt := Int64.toInt_le n
  rw [Value.ofInt64, int64, if_pos ⟨hmin, hmax⟩, Int64.ofInt_toInt]

@[simp]
theorem uint32_ofUInt32 (n : UInt32) : uint32 (.ofUInt32 n) = .ok n := by
  have hsize : (n.toNat : Int) < UInt32.size := Int.ofNat_lt.mpr n.toNat_lt_size
  rw [Value.ofUInt32, uint32, if_pos ⟨Int.natCast_nonneg _, hsize⟩, Int.toNat_natCast,
    UInt32.ofNat_toNat]

theorem instant_ofInstant {t : Instant} (h : Instant.read? t.write = some t) :
    instant (.ofInstant t) = .ok t := by
  rw [Value.ofInstant, instant, h]

/-- What is written for each item is read item by item. -/
theorem list_map {α : Type} {read : Reader α} {write : α → Value}
    (h : ∀ a, read (write a) = .ok a) (as : List α) :
    list read (.list (as.map write)) = .ok as := by
  rw [list]
  induction as with
  | nil => rfl
  | cons a r ih =>
    rw [List.map_cons, List.mapM_cons, h, ih]
    rfl

theorem table_cons {α : Type} (read : Reader α) (e : String × Value) (r : List (String × Value)) :
    table read (.table (e :: r)) = (do
      let a ← read e.2
      let rest ← table read (.table r)
      return (e.1, a) :: rest) := by
  simp only [table, List.mapM_cons]
  cases read e.2 <;> rfl

theorem mem_of_table {α : Type} {read : Reader α} {entries : List (String × Value)}
    {as : List (String × α)} (h : table read (.table entries) = .ok as) :
    ∀ a ∈ as, ∃ v, (a.1, v) ∈ entries ∧ read v = .ok a.2 := by
  induction entries generalizing as with
  | nil =>
    cases h
    exact fun a ha => absurd ha List.not_mem_nil
  | cons e r ih =>
    rw [table_cons] at h
    obtain ⟨b, he, h⟩ := bind_eq_ok.mp h
    obtain ⟨bs, hr, h⟩ := bind_eq_ok.mp h
    cases h
    intro a ha
    rcases List.mem_cons.mp ha with rfl | ha
    · exact ⟨e.2, List.mem_cons_self, he⟩
    · obtain ⟨v, hv, hread⟩ := ih hr a ha
      exact ⟨v, List.mem_cons_of_mem e hv, hread⟩

/-- What is written under each key is read entry by entry. -/
theorem table_map {α β : Type} {read : Reader β} {write : α → Value} {f : α → β}
    {entries : List (String × α)} (h : ∀ e ∈ entries, read (write e.2) = .ok (f e.2)) :
    table read (.table (entries.map fun e => (e.1, write e.2))) =
      .ok (entries.map fun e => (e.1, f e.2)) := by
  induction entries with
  | nil => rfl
  | cons e r ih =>
    obtain ⟨he, hr⟩ := List.forall_mem_cons.mp h
    rw [List.map_cons, table_cons, he, ih hr]
    rfl

theorem nullable_of_ne_null {α : Type} {v : Value} (h : v ≠ .null) (read : Reader α) :
    nullable read v = some <$> read v := by
  rw [nullable.eq_def]
  split
  · exact absurd rfl h
  · rfl

/-- A value that may be absent is read back if it is read back when it is there, and is not null
then. -/
theorem nullable_ofOption {α : Type} {read : Reader α} {write : α → Value}
    (h : ∀ a, read (write a) = .ok a) (hnull : ∀ a, write a ≠ .null) (o : Option α) :
    nullable read (.ofOption write o) = .ok o := by
  cases o with
  | none => rfl
  | some a =>
    rw [Value.ofOption, nullable_of_ne_null (hnull a), h]
    rfl

@[simp]
theorem nullable_text (o : Option String) : nullable text (.ofOption .text o) = .ok o :=
  nullable_ofOption text_text (fun _ => nofun) o

/-- A double that may be absent is read as absent when it is not finite. -/
@[simp]
theorem nullable_float (o : Option Float) :
    nullable float (.ofOption .ofFloat o) = .ok (o.filter Float.isFinite) := by
  cases o with
  | none => rfl
  | some x =>
    rw [Value.ofOption, Value.ofFloat, Option.filter_some]
    split <;> rfl

end Reader

theorem filter_isFinite_eq_self_iff {o : Option Float} :
    o.filter Float.isFinite = o ↔ ∀ x ∈ o.toList, x.isFinite = true := by
  cases o <;> simp

/-- An entry that is left out when there is nothing in it is read like one that is null then. -/
@[simp]
theorem Checked.ofEntry_map {α : Type} (key : String) (read : Reader α) (write : α → Value)
    (o : Option α) :
    ofEntry key (Reader.nullable read) (.sound none) (o.map write) =
      ofRead key (Reader.nullable read (.ofOption write o)) := by
  cases o <;> rfl

/-- Cases that are read back from their names: no case goes by an earlier one's name. -/
class Cases.Lawful (α : Type) [Cases α] : Prop where
  ofName?_name (a : α) : Cases.ofName? (Cases.name a) = some a

instance : Cases.Lawful EmissionKind := ⟨by intro a; cases a <;> rfl⟩

namespace Reader

variable {α : Type} [Cases α] [Cases.Lawful α]

@[simp]
theorem case_ofCase (setting : Setting) (a : α) : case setting (.ofCase a) = .ok a := by
  rw [Value.ofCase, case, caseNamed, Cases.Lawful.ofName?_name]

@[simp]
theorem tag_ofCase (setting : Setting) (a : α) : tag setting (.ofCase a) = .ok a := by
  rw [Value.ofCase, tag, caseNamed, Cases.Lawful.ofName?_name]

@[simp]
theorem nullable_case (setting : Setting) (o : Option α) :
    nullable (case setting) (.ofOption .ofCase o) = .ok o :=
  nullable_ofOption (case_ofCase setting) (fun _ => nofun) o

/-- A tag among the entries of a table is taken out, and the other entries remain. -/
theorem taggedWithin_written {key : String} {given : List (Option (String × Value))} {a : α}
    (h : Value.lastGiven key given = some (.ofCase a)) (setting : Setting) (wanted : String) :
    taggedWithin setting wanted key (.ofPresent given) =
      .ok (a, .table ((Value.written given).filter fun e => e.1 != key)) := by
  rw [Value.ofPresent_eq_written, taggedWithin, Value.findEntry_written, h]
  simp only [tag_ofCase]
  rfl

end Reader

end CarbonLedger
