import CarbonLedger.Proofs.DoubleRange
import CarbonLedger.Proofs.Replacements
import CarbonLedger.Proofs.WrittenRecords

namespace CarbonLedger

namespace Label

def number? : Label → Option Float
  | .text _ => none
  | .number x => some x

theorem read_toValue {a : Label} (h : ∀ x, a.number? = some x → x.isFinite = true) :
    Reader.nullable read a.toValue = .ok (some a) := by
  cases a with
  | text s => rfl
  | number x =>
    rw [toValue, Value.ofFloat, if_pos (h x rfl)]
    rfl

end Label

namespace Classification

def numbers (c : Classification) : List Float := c.entries.filterMap fun e => e.2.number?

theorem read_toValue {c : Classification} (h : ∀ x ∈ c.numbers, x.isFinite = true) :
    read c.toValue = .ok c := by
  have hlabel : ∀ e ∈ c.entries, Reader.nullable Label.read e.2.toValue = .ok (some e.2) := by
    intro e he
    refine Label.read_toValue fun x hx => h x ?_
    exact List.mem_filterMap.mpr ⟨e, he, hx⟩
  have hkept : (c.entries.map fun e => (e.1, some e.2)).filterMap (fun e => e.2.map (e.1, ·)) =
      c.entries := by
    rw [List.filterMap_map]
    exact List.filterMap_some
  rw [read, toValue, Reader.table_map hlabel]
  change Except.ok (KeyMap.ofList ((c.entries.map _).filterMap _)) = _
  rw [hkept, KeyMap.ofList_entries]

end Classification

theorem Quantities.read_toValue {q : Quantities}
    (h : ∀ x ∈ q.entries.map (·.2), x.isFinite = true) : read q.toValue = .ok q := by
  have hquantity : ∀ e ∈ q.entries, Reader.float (.ofFloat e.2) = .ok e.2 := by
    intro e he
    rw [Reader.float_ofFloat, if_pos (h e.2 (List.mem_map_of_mem he))]
  rw [read, toValue, Reader.table_map (f := id) hquantity]
  change Except.ok (KeyMap.ofList (q.entries.map id)) = _
  rw [List.map_id, KeyMap.ofList_entries]

namespace Factor

def numbers (f : Factor) : List Float :=
  f.classification.numbers ++ f.quantities.entries.map (·.2)

def instants (f : Factor) : List Instant := f.validFrom :: f.validTo.toList

/-- A finite factor is read back from the table it is written to. -/
theorem read_toValue {f : Factor} (hfinite : ∀ x ∈ f.numbers, x.isFinite = true)
    (htimes : ∀ t ∈ f.instants, Instant.read? t.write = some t) (setting : Setting) :
    read setting f.toValue = .ok f := by
  obtain ⟨hlabels, hquantities⟩ := List.forall_mem_append.mp hfinite
  obtain ⟨hfrom, hto⟩ := List.forall_mem_cons.mp htimes
  have hend : Reader.nullable Reader.instant (.ofOption .ofInstant f.validTo) = .ok f.validTo := by
    cases h : f.validTo with
    | none => rfl
    | some t =>
      have ht : Reader.instant (.ofInstant t) = .ok t :=
        Reader.instant_ofInstant (hto t (by rw [h]; exact List.mem_singleton.mpr rfl))
      change some <$> Reader.instant (.ofInstant t) = _
      rw [ht]
      rfl
  rw [read, toValue, Reader.record_ofEntries, ofFields]
  simp [Classification.read_toValue hlabels, Quantities.read_toValue hquantities,
    Reader.instant_ofInstant hfrom, hend]

end Factor

namespace Value

def isNull : Value → Bool
  | .null => true
  | _ => false

theorem isNull_iff {v : Value} : v.isNull = true ↔ v = .null := by
  cases v <;> simp [isNull]

def said (entries : List (String × Value)) : List (String × Value) :=
  entries.filter fun e => !e.2.isNull

def addNull (key : String) (entries : List (String × Value)) : List (String × Value) :=
  match findEntry key entries with
  | none => insertEntry key .null entries
  | some _ => entries

def withNulls (keys : List String) : Value → Value
  | .table entries => .table (keys.foldl (fun es key => addNull key es) entries)
  | v => v

theorem said_insertEntry {key : String} {entries : List (String × Value)}
    (h : findEntry key entries = none) : said (insertEntry key .null entries) = said entries := by
  induction entries with
  | nil => rfl
  | cons e r ih =>
    rw [findEntry] at h
    split at h
    · cases h
    · next hne =>
      rw [insertEntry, if_neg hne]
      split
      · rfl
      · rw [said, said, List.filter_cons, List.filter_cons, ← said, ← said, ih h]

/-- A null entry says nothing. -/
theorem said_addNull (key : String) (entries : List (String × Value)) :
    said (addNull key entries) = said entries := by
  rw [addNull]
  split
  · next h => exact said_insertEntry h
  · rfl

def labels (place : Nat) (v : Value) : Value := (v.field? place "classification").getD (.table [])

def withNullLabels (place : Nat) (keys : List String) : Value → Value
  | .table entries =>
    .table (insertEntry "classification" (((table entries).labels place).withNulls keys) entries)
  | .list items => .list (items.modify place (withNulls keys))
  | v => v

end Value

/-- What is null may as well not be there when the values are looked for after they were read. -/
theorem filterMap_nullable {α : Type} (read : Reader α) (entries : List (String × Value)) :
    (List.filterMap fun e : String × Option α => e.2.map (e.1, ·)) <$>
        Reader.table (Reader.nullable read) (.table entries) =
      Reader.table read (.table (Value.said entries)) := by
  induction entries with
  | nil => rfl
  | cons e r ih =>
    have hsaid : Value.said (e :: r) = if e.2.isNull then Value.said r else e :: Value.said r := by
      rw [Value.said, List.filter_cons, ← Value.said]
      cases e.2.isNull <;> rfl
    rw [hsaid, Reader.table_cons]
    cases hnull : e.2.isNull with
    | true =>
      have hread : Reader.nullable read e.2 = .ok none := by rw [Value.isNull_iff.mp hnull]; rfl
      rw [hread, if_pos rfl, ← ih]
      cases Reader.table (Reader.nullable read) (.table r) <;> rfl
    | false =>
      have hne : e.2 ≠ .null := by
        intro he
        rw [Value.isNull_iff.mpr he] at hnull
        cases hnull
      rw [Reader.nullable_of_ne_null hne, if_neg Bool.false_ne_true, Reader.table_cons, ← ih]
      cases read e.2 <;> cases Reader.table (Reader.nullable read) (.table r) <;> rfl

/-- What is read of labels depends on those with a value only. -/
theorem Classification.read_table (entries : List (String × Value)) :
    read (.table entries) =
      KeyMap.ofList <$> Reader.table Label.read (.table (Value.said entries)) := by
  rw [← filterMap_nullable, read]
  cases Reader.table (Reader.nullable Label.read) (.table entries) <;> rfl

@[simp]
theorem Classification.read_withNulls (keys : List String) (v : Value) :
    read (v.withNulls keys) = read v := by
  cases v with
  | table entries =>
    have hsaid : Value.said (keys.foldl (fun es key => Value.addNull key es) entries) =
        Value.said entries :=
      List.foldlRecOn (motive := fun es => Value.said es = Value.said entries) keys _ rfl
        fun es h key _ => (Value.said_addNull key es).trans h
    rw [Value.withNulls, read_table, hsaid, read_table]
  | _ => rfl

/-- Labels that a row does not give are read as ones that it gives none of. -/
@[simp]
theorem ofRead_labels (place : Nat) (entries : List (String × Value)) :
    Checked.ofRead "classification" (Classification.read ((Value.table entries).labels place)) =
      Checked.ofEntry "classification" Classification.read (.sound .empty)
        (findEntry "classification" entries) := by
  rw [Value.labels, Value.field?]
  cases findEntry "classification" entries <;> rfl

namespace Fields

variable {α : Type} (wanted : String) (size : Nat) (items : List Value) (key : String)
  (read : Reader α) (unnamed unplaced : Option α)

theorem look_modify_of_ne {place i : Nat} (h : place ≠ i) (change : Value → Value) :
    (placed wanted size (items.modify place change)).look i key read unnamed unplaced =
      (placed wanted size items).look i key read unnamed unplaced := by
  simp only [look, List.getElem?_modify_ne change items h]

/-- A change in the value of a field is none if the reader of the field makes the same of it. -/
theorem look_modify_eq {change : Value → Value} (h : ∀ v, read (change v) = read v) (place : Nat) :
    (placed wanted size (items.modify place change)).look place key read unnamed unplaced =
      (placed wanted size items).look place key read unnamed unplaced := by
  simp only [look, List.getElem?_modify_eq]
  cases items[place]? with
  | none => rfl
  | some v =>
    simp only [Option.map_eq_map, Option.map_some, h]

end Fields

section Rows
variable {setting : Setting} {place : Nat}

/-- A record that makes the same of its labels with nulls and without reads the same rows. -/
theorem Reader.record_withNullLabels {α : Type} {wanted : String} {size : Nat}
    {build : Fields → Checked α} {keys : List String}
    (hnamed : ∀ entries, build (.named (insertEntry "classification"
      (((Value.table entries).labels place).withNulls keys) entries)) = build (.named entries))
    (hplaced : ∀ items, build (.placed wanted size (items.modify place (Value.withNulls keys))) =
      build (.placed wanted size items)) (v : Value) :
    record setting wanted size build (v.withNullLabels place keys) =
      record setting wanted size build v := by
  cases v with
  | table entries => rw [Value.withNullLabels, record_table, record_table, hnamed]
  | list items => rw [Value.withNullLabels, record, record, hplaced, List.length_modify]
  | _ => rfl

/-- Null labels do not change the factor that is read. -/
theorem Factor.read_withNullLabels (keys : List String) (v : Value) :
    read setting (v.withNullLabels 2 keys) = read setting v := by
  apply Reader.record_withNullLabels
  · intro entries
    simp [ofFields, KeyMap.findEntry_insertEntry]
  · intro items
    simp [ofFields, Fields.required, Fields.optional, Fields.withDefault, Fields.look_modify_of_ne,
      Fields.look_modify_eq]

/-- Null labels do not change the draft that is read. -/
theorem Draft.read_withNullLabels (keys : List String) (v : Value) :
    read setting (v.withNullLabels 1 keys) = read setting v := by
  apply Reader.record_withNullLabels
  · intro entries
    simp [ofFields, KeyMap.findEntry_insertEntry]
  · intro items
    simp [ofFields, Fields.required, Fields.withDefault, Fields.look_modify_of_ne,
      Fields.look_modify_eq]

/-- The labels of a record are read from what its row gives as such. -/
theorem labels_of_withDefault {v : Value} {fields : Fields} {c : Classification}
    (hv : ∀ place key, fields.get? place key = v.field? place key)
    (h : fields.withDefault place "classification" Classification.read .empty = .sound c) :
    Classification.read (v.labels place) = .ok c := by
  rw [Value.labels, ← hv]
  cases hlabels : fields.get? place "classification" with
  | none =>
    rw [Fields.withDefault_of_absent hlabels, Checked.sound.injEq] at h
    rw [← h]
    rfl
  | some w => exact (Fields.look_eq_sound_iff hlabels).mp h

theorem Factor.labels_of_read {v : Value} {f : Factor} (h : read setting v = .ok f) :
    Classification.read (v.labels 2) = .ok f.classification := by
  obtain ⟨fields, hv, hfields⟩ := Reader.exists_fields_of_record h
  simp only [ofFields, Checked.seq_eq_sound_iff, Checked.map_eq_sound_iff] at hfields
  obtain ⟨_, ⟨_, ⟨_, ⟨_, ⟨_, ⟨_, _, rfl⟩, _, _, rfl⟩, c, hc, rfl⟩, _, _, rfl⟩, _, _, rfl⟩, _, _,
    rfl⟩ := hfields
  exact labels_of_withDefault hv hc

theorem Draft.labels_of_read {v : Value} {d : Draft} (h : read setting v = .ok d) :
    Classification.read (v.labels 1) = .ok d.classification := by
  obtain ⟨fields, hv, hfields⟩ := Reader.exists_fields_of_record h
  simp only [ofFields, Checked.seq_eq_sound_iff, Checked.map_eq_sound_iff] at hfields
  obtain ⟨_, ⟨_, ⟨_, ⟨_, _, rfl⟩, c, hc, rfl⟩, _, _, rfl⟩, _, _, rfl⟩ := hfields
  exact labels_of_withDefault hv hc

end Rows

/-- Trees that JSON has a form for. It has none for infinities, for what is no number, and for times
without quotation marks. -/
inductive Value.IsJson : Value → Prop
  | null : IsJson .null
  | bool (b : Bool) : IsJson (.bool b)
  | int (n : Int) : IsJson (.int n)
  | float {x : Float} (h : x.isFinite = true) : IsJson (.float x)
  | text (s : String) : IsJson (.text s)
  | list {items : List Value} (h : ∀ v ∈ items, IsJson v) : IsJson (.list items)
  | table {entries : List (String × Value)} (h : ∀ e ∈ entries, IsJson e.2) :
    IsJson (.table entries)

namespace Value.IsJson

theorem labels {v : Value} (h : v.IsJson) (place : Nat) : (v.labels place).IsJson := by
  rw [Value.labels]
  cases hv : v.field? place "classification" with
  | none => exact table (by simp)
  | some w =>
    cases h with
    | list h => exact h w (List.mem_of_getElem? hv)
    | table h => exact h _ (mem_of_findEntry hv)
    | _ => cases hv

/-- JSON has no way to write a number that is not finite. -/
theorem isFinite_of_float {v : Value} {x : Float} (h : v.IsJson) (hx : Reader.float v = .ok x) :
    x.isFinite = true := by
  cases h with
  | float h =>
    cases hx
    exact h
  | int n =>
    rw [Reader.float] at hx
    split at hx
    · next hrange =>
      rw [← Except.ok.inj hx]
      exact Decimal.isFinite_ofInt hrange.1 hrange.2
    · cases hx
  | _ => cases hx

theorem isFinite_of_label {v : Value} {a : Label} {x : Float} (h : v.IsJson)
    (ha : Label.read v = .ok a) (hx : a.number? = some x) : x.isFinite = true := by
  rw [Label.read.eq_def] at ha
  split at ha
  · cases ha
    cases hx
  · obtain ⟨y, hread, rfl⟩ := map_eq_ok.mp ha
    cases hx
    exact h.isFinite_of_float hread

end Value.IsJson

namespace Classification

/-- The numbers among labels that JSON gives are finite. -/
theorem isFinite_of_read {v : Value} {c : Classification} (hv : v.IsJson) (h : read v = .ok c) :
    ∀ x ∈ c.numbers, x.isFinite = true := by
  cases hv with
  | table hv =>
    rw [read_table] at h
    obtain ⟨labels, hlabels, rfl⟩ := map_eq_ok.mp h
    intro x hx
    obtain ⟨e, he, hex⟩ := List.mem_filterMap.mp hx
    obtain ⟨w, hw, hread⟩ := Reader.mem_of_table hlabels e (KeyMap.mem_of_mem_ofList he)
    exact (hv _ (List.mem_filter.mp hw).1).isFinite_of_label hread hex
  | _ => cases h

theorem beq_self_of_isFinite {c : Classification} (h : ∀ x ∈ c.numbers, x.isFinite = true) :
    (c == c) = true := by
  refine KeyMap.beq_self fun e he => Label.beq_self fun x hx => ?_
  have hfinite : x.isFinite = true :=
    h x (List.mem_filterMap.mpr ⟨e, he, by rw [hx]; rfl⟩)
  exact beq_self_of_not_isNaN (isNaN_of_isFinite hfinite)

end Classification

namespace Factor
open Catalog

/-- What it means that two rows are one to a catalog and to queries: they are versions of each
other, where the first is current the second cannot come in as current, and both rank alike. -/
structure ContestsSlot (f g : Factor) : Prop where
  sharesSlot : f.sharesSlot g = true
  refused : ∀ calls, f ∈ (afterCalls calls).factors → f.isCurrent = true → g.isCurrent = true →
    (∀ h ∈ (afterCalls calls).factors, h.id ≠ g.id) →
      (afterCalls calls).accept g = .error (.slotTaken g f.id)
  ranked : ∀ q : Query, f.inWindow q.asOf = g.inWindow q.asOf → q.rank? f = q.rank? g

/-- What it means that a draft replaces a factor: where the factor is current, the draft ends it
where it starts itself, and ends no other factor, provided that it starts later and that there is an
id for it. -/
def IsReplacedBy (f : Factor) (d : Draft) : Prop :=
  ∀ calls, f ∈ (afterCalls calls).factors → f.isCurrent = true →
    endFor d f = { f with validTo := some d.validFrom } ∧
      (afterCalls calls).supersede d =
        match (afterCalls calls).nextId? with
        | none => .error .overflow
        | some id =>
          if f.validFrom < d.validFrom then
            .ok ((afterCalls calls).renewed d id, ⟨[f.id], d.toFactor id⟩)
          else .error (.refused (.startsTooEarly f d.validFrom))

theorem current_afterCalls {f : Factor} {kind : EmissionKind} {k : Classification}
    {calls : List Call} (hf : f ∈ (afterCalls calls).factors) (hcurrent : f.isCurrent = true)
    (hslot : f.inSlot kind k = true) :
    ((afterCalls calls).versions kind k).filter (·.isCurrent) = [f] :=
  (oneCurrent_afterCalls calls).current_eq_singleton
    (List.mem_filter.mpr ⟨List.mem_filter.mpr ⟨hf, hslot⟩, hcurrent⟩)

/-- A factor is replaced by the drafts of its slot. -/
theorem isReplacedBy_of_inSlot {f : Factor} {d : Draft}
    (hslot : f.inSlot d.kind d.classification = true) : f.IsReplacedBy d := by
  intro calls hf hcurrent
  have hended : endedBy d f = true := by rw [endedBy_eq, hcurrent, hslot]; rfl
  have hone : (afterCalls calls).currentFor d = [f] := current_afterCalls hf hcurrent hslot
  refine ⟨if_pos hended, ?_⟩
  rcases renew_cases d (afterCalls calls) with ⟨hid, hon⟩ | ⟨id, hid, h⟩
  · simp only [hid]
    exact Write.outcome_of_error hon
  · simp only [hid]
    rcases h with ⟨g, hg, hgended, hearly, hon⟩ | ⟨hlater, hon⟩
    · -- The version that is refused is the one that the draft would end.
      have hgf : g ∈ [f] := hone ▸ mem_currentFor.mpr ⟨hg, hgended⟩
      rw [List.mem_singleton.mp hgf] at hearly hon
      rw [if_neg (Instant.not_lt.mpr hearly)]
      exact Write.outcome_of_error hon
    · rw [filter_endedBy, hone] at hon
      rw [if_pos (hlater f hf hended)]
      exact Write.outcome_of_ok hon

theorem rank?_eq {f g : Factor} {q : Query} (hkind : f.kind = g.kind)
    (hlabels : f.classification = g.classification)
    (hwindow : f.inWindow q.asOf = g.inWindow q.asOf) : q.rank? f = q.rank? g := by
  have hfits : q.fits f = q.fits g := by rw [Query.fits, Query.fits, hkind, hwindow, hlabels]
  have hmatched : q.matched f = q.matched g := by rw [Query.matched, Query.matched, hlabels]
  rw [Query.rank?, Query.rank?, hfits, hmatched, hlabels]

/-- Current factors with the same kind and labels contest one slot. -/
theorem contestsSlot_of_eq {f g : Factor} (hkind : f.kind = g.kind)
    (hlabels : f.classification = g.classification)
    (hself : (f.classification == f.classification) = true) : f.ContestsSlot g := by
  have hslot : f.inSlot g.kind g.classification = true :=
    inSlot_iff.mpr ⟨hkind, hlabels ▸ hself⟩
  refine ⟨hslot, ?_, fun q => rank?_eq hkind hlabels⟩
  intro calls hf hfcurrent hgcurrent hfree
  have hcurrent : (afterCalls calls).current? g = some f := by
    have hone := current_afterCalls hf hfcurrent hslot
    rw [versions, List.filter_filter] at hone
    rw [current?, ← List.head?_filter]
    exact congrArg List.head? hone
  rw [accept, hcurrent, if_pos hgcurrent, if_neg]
  intro htaken
  obtain ⟨h, hmem, hid⟩ := List.any_eq_true.mp htaken
  exact hfree h hmem (eq_of_beq hid)

end Factor

/-- Rows that give the same labels, whichever keys with the value null each has on top. The labels
stand at the given places where the rows are lists. -/
def Value.SameLabels (place place' : Nat) (v w : Value) : Prop :=
  ∃ base : Value, ∃ keys keys', v.labels place = base.withNulls keys ∧
    w.labels place' = base.withNulls keys'

/-- Documents that differ in null labels alone have the same classification. -/
theorem Value.SameLabels.read_eq {place place' : Nat} {v w : Value}
    (h : SameLabels place place' v w) :
    Classification.read (v.labels place) = Classification.read (w.labels place') := by
  obtain ⟨base, keys, keys', hv, hw⟩ := h
  rw [hv, hw, Classification.read_withNulls, Classification.read_withNulls]

/-- A factor with finite numbers is read back from its data as it was, provided that its times are.
A label that is null is not there: with more of them a row is read as the same factor or draft, or
refused in the same way. So rows of one kind whose labels differ in such keys only share a slot and
conflict, each is ended by the replacement that the other one makes, and all queries rank them
alike. -/
theorem factors_come_back_and_null_labels_are_none (setting : Setting) :
    (∀ f : Factor, (∀ x ∈ f.numbers, x.isFinite = true) →
      (∀ t ∈ f.instants, Instant.read? t.write = some t) →
        Factor.read setting f.toValue = .ok f) ∧
    (∀ keys v, Factor.read setting (v.withNullLabels 2 keys) = Factor.read setting v ∧
      Draft.read setting (v.withNullLabels 1 keys) = Draft.read setting v) ∧
    (∀ v w f g, v.IsJson → Value.SameLabels 2 2 v w → Factor.read setting v = .ok f →
      Factor.read setting w = .ok g → f.kind = g.kind → f.ContestsSlot g) ∧
    ∀ v w f d, v.IsJson → Value.SameLabels 2 1 v w → Factor.read setting v = .ok f →
      Draft.read setting w = .ok d → f.kind = d.kind → f.IsReplacedBy d := by
  have hself {v : Value} {f : Factor} (hv : v.IsJson) (hf : Factor.read setting v = .ok f) :
      (f.classification == f.classification) = true :=
    Classification.beq_self_of_isFinite
      (Classification.isFinite_of_read (hv.labels 2) (Factor.labels_of_read hf))
  refine ⟨fun f hfinite htimes => Factor.read_toValue hfinite htimes setting,
    fun keys v => ⟨Factor.read_withNullLabels keys v, Draft.read_withNullLabels keys v⟩, ?_, ?_⟩
  · intro v w f g hv hsame hf hg hkind
    have hlabels : f.classification = g.classification := by
      have h := hsame.read_eq
      rw [Factor.labels_of_read hf, Factor.labels_of_read hg] at h
      exact Except.ok.inj h
    exact Factor.contestsSlot_of_eq hkind hlabels (hself hv hf)
  · intro v w f d hv hsame hf hd hkind
    have hlabels : f.classification = d.classification := by
      have h := hsame.read_eq
      rw [Factor.labels_of_read hf, Draft.labels_of_read hd] at h
      exact Except.ok.inj h
    exact Factor.isReplacedBy_of_inSlot (Factor.inSlot_iff.mpr ⟨hkind, hlabels ▸ hself hv hf⟩)

def secondClassLabels : Value := .table [("class", .int 2), ("country_code", .text "CH")]

def secondClassRow (id : Int) (keys : List String) : Value :=
  .table [
    ("classification", secondClassLabels.withNulls keys),
    ("emission_type", .text "train"),
    ("id", .int id),
    ("valid_from", .text "2024-01-01T00:00:00Z"),
    ("values", .table [("kg_per_km", .float 0.008)])]

def secondClass (id : Int64) : Factor where
  id := id
  kind := .train
  classification := .ofList [("class", .number 2.0), ("country_code", .text "CH")]
  quantities := .ofList [("kg_per_km", 0.008)]
  validFrom := ⟨1704067200, 0⟩
  validTo := none

def secondClassDraftRow (keys : List String) : Value :=
  .list [.text "train", secondClassLabels.withNulls keys, .table [], .text "2025-01-01T00:00:00Z"]

def secondClassDraft : Draft :=
  ⟨.train, (secondClass 0).classification, .empty, ⟨1735689600, 0⟩⟩

theorem isJson_secondClassRow : (secondClassRow 3 ["operator"]).IsJson := by
  have hlabels : (secondClassLabels.withNulls ["operator"]).IsJson := by
    have h : secondClassLabels.withNulls ["operator"] =
        .table [("class", .int 2), ("country_code", .text "CH"), ("operator", .null)] := rfl
    rw [h]
    refine .table ?_
    simp [Value.IsJson.int, Value.IsJson.text, Value.IsJson.null]
  have hquantities : (Value.table [("kg_per_km", .float 0.008)]).IsJson := by
    have hnumber : Float.isFinite 0.008 = true := by decide +kernel
    refine .table ?_
    simp [Value.IsJson.float hnumber]
  refine .table ?_
  simp [hlabels, hquantities, Value.IsJson.int, Value.IsJson.text]

/-- A row with an operator that is null leaves no slot to a row with a route that is null, and is
ended by a draft with a tariff that is null. -/
theorem null_operator_is_no_second_train :
    (∀ x ∈ (secondClass 3).numbers, x.isFinite = true) ∧
      (∀ t ∈ (secondClass 3).instants, Instant.read? t.write = some t) ∧
      Factor.read (.onTheSpot .json) (secondClass 3).toValue = .ok (secondClass 3) ∧
      Factor.read (.onTheSpot .json) (secondClassRow 3 ["operator"]) = .ok (secondClass 3) ∧
      Factor.read (.onTheSpot .json) (secondClassRow 4 ["route", "zone"]) = .ok (secondClass 4) ∧
      Draft.read (.onTheSpot .json) (secondClassDraftRow ["tariff"]) = .ok secondClassDraft ∧
      (Catalog.afterCalls [.enter (secondClass 3)]).factors = [secondClass 3] ∧
      (Catalog.afterCalls [.enter (secondClass 3)]).accept (secondClass 4) =
        .error (.slotTaken (secondClass 4) 3) ∧
      (Catalog.afterCalls [.enter (secondClass 3)]).supersede secondClassDraft =
        .ok (⟨[{ secondClass 3 with validTo := some ⟨1735689600, 0⟩ },
          secondClassDraft.toFactor 4]⟩, ⟨[3], secondClassDraft.toFactor 4⟩) := by
  obtain ⟨hwritten, _, hconflict, hended⟩ :=
    factors_come_back_and_null_labels_are_none (.onTheSpot .json)
  have hfinite : ∀ x ∈ (secondClass 3).numbers, x.isFinite = true := by decide +kernel
  have htimes : ∀ t ∈ (secondClass 3).instants, Instant.read? t.write = some t := by decide +kernel
  have hrow : Factor.read (.onTheSpot .json) (secondClassRow 3 ["operator"]) =
      .ok (secondClass 3) := rfl
  have hother : Factor.read (.onTheSpot .json) (secondClassRow 4 ["route", "zone"]) =
      .ok (secondClass 4) := rfl
  have hdraft : Draft.read (.onTheSpot .json) (secondClassDraftRow ["tariff"]) =
      .ok secondClassDraft := rfl
  have hfactors : (Catalog.afterCalls [.enter (secondClass 3)]).factors = [secondClass 3] := rfl
  have hmem : secondClass 3 ∈ (Catalog.afterCalls [.enter (secondClass 3)]).factors :=
    List.mem_cons_self
  have hfree : ∀ h ∈ (Catalog.afterCalls [.enter (secondClass 3)]).factors,
      h.id ≠ (secondClass 4).id := by
    rw [hfactors]
    simp [secondClass]
  have hrefused := (hconflict _ _ _ _ isJson_secondClassRow
    ⟨secondClassLabels, ["operator"], ["route", "zone"], rfl, rfl⟩ hrow hother
    rfl).refused _ hmem rfl rfl hfree
  have hreplaced := (hended _ _ _ _ isJson_secondClassRow
    ⟨secondClassLabels, ["operator"], ["tariff"], rfl, rfl⟩ hrow hdraft rfl _ hmem rfl).2
  exact ⟨hfinite, htimes, hwritten _ hfinite htimes, hrow, hother, hdraft, hfactors, hrefused,
    hreplaced⟩

end CarbonLedger
