import CarbonLedger.Emission.Data
import CarbonLedger.Proofs.StoredActivities

namespace CarbonLedger

instance : Cases.Lawful HaulCategory := ⟨by intro a; cases a <;> rfl⟩

instance : Cases.Lawful GridSource := ⟨by intro a; cases a <;> rfl⟩

instance : Cases.Lawful Formula := ⟨by intro a; cases a <;> rfl⟩

@[simp]
theorem Value.lastGiven_cons_entry {α : Type} (key j : String) (f : α → Value) (o : Option α)
    (r : List (Option (String × Value))) :
    lastGiven key ( Value.entry? j f o :: r) =
      (lastGiven key r).or (if key = j then o.map f else none) := by
  cases o with
  | none => simp [lastGiven, Value.entry?]
  | some a => simp [ Value.entry?]

namespace Snapshot

def beside (formula : Formula) (entries : List (Option (String × Value))) : Value :=
  .table ((Value.written (some ("formula", .ofCase formula) :: entries)).filter
    fun e => e.1 != "formula")

end Snapshot

namespace EquipmentSnapshot

def numbers (s : EquipmentSnapshot) : List Float :=
  [s.activeHours, s.passiveHours, s.weeksPerYear, s.hoursPerWeek, s.kgPerKwh] ++
    (s.activePercent.toList ++ (s.passivePercent.toList ++ (s.activeW.toList ++ s.standbyW.toList)))

/-- An equipment snapshot is read back from beside the formula, and so are the others. -/
theorem read_beside {s : EquipmentSnapshot} (h : ∀ x ∈ s.numbers, x.isFinite = true)
    (setting : Setting) (formula : Formula) :
    read setting (Snapshot.beside formula s.entries) = .ok s := by
  simp only [numbers, List.forall_mem_append, List.forall_mem_cons,
    ← filter_isFinite_eq_self_iff] at h
  rw [read, Snapshot.beside, Reader.record_table, entries]
  simp [h]

end EquipmentSnapshot

namespace TripSnapshot

def numbers (s : TripSnapshot) : List Float :=
  s.greatCircleKm.toList ++ (s.impactScore.toList ++ s.heightMultiplier.toList)

theorem read_beside {s : TripSnapshot} (h : ∀ x ∈ s.numbers, x.isFinite = true)
    (setting : Setting) (formula : Formula) :
    read setting (Snapshot.beside formula s.entries) = .ok s := by
  simp only [numbers, List.forall_mem_append, ← filter_isFinite_eq_self_iff] at h
  rw [read, Snapshot.beside, Reader.record_table, entries]
  simp [h]

end TripSnapshot

namespace HeadcountSnapshot

def numbers (s : HeadcountSnapshot) : List Float := s.positions :: s.kgPerPosition.toList

theorem read_beside {s : HeadcountSnapshot} (h : ∀ x ∈ s.numbers, x.isFinite = true)
    (setting : Setting) (formula : Formula) :
    read setting (Snapshot.beside formula s.entries) = .ok s := by
  simp only [numbers, List.forall_mem_cons, ← filter_isFinite_eq_self_iff] at h
  rw [read, Snapshot.beside, Reader.record_table, entries]
  simp [h]

end HeadcountSnapshot

namespace CloudSnapshot

def numbers (s : CloudSnapshot) : List Float := s.amount :: s.kgPerUnit.toList

theorem read_beside {s : CloudSnapshot} (h : ∀ x ∈ s.numbers, x.isFinite = true)
    (setting : Setting) (formula : Formula) :
    read setting (Snapshot.beside formula s.entries) = .ok s := by
  simp only [numbers, List.forall_mem_cons, ← filter_isFinite_eq_self_iff] at h
  rw [read, Snapshot.beside, Reader.record_table, entries]
  simp [h]

end CloudSnapshot

namespace ModelSnapshot

def numbers (s : ModelSnapshot) : List Float :=
  s.requestsPerDay :: s.daysPerWeek :: s.weeksPerYear :: s.gramsPerRequest.toList

theorem read_beside {s : ModelSnapshot} (h : ∀ x ∈ s.numbers, x.isFinite = true)
    (setting : Setting) (formula : Formula) :
    read setting (Snapshot.beside formula s.entries) = .ok s := by
  simp only [numbers, List.forall_mem_cons, ← filter_isFinite_eq_self_iff] at h
  rw [read, Snapshot.beside, Reader.record_table, entries]
  simp [h]

end ModelSnapshot

namespace Snapshot

def numbers : Snapshot → List Float
  | .equipment s => s.numbers
  | .flight s => s.numbers
  | .train s => s.numbers
  | .headcount s => s.numbers
  | .externalCloud s => s.numbers
  | .externalAi s => s.numbers

/-- The formula says as which kind of snapshot the other entries are read. -/
theorem read_toValue {s : Snapshot} (h : ∀ x ∈ s.numbers, x.isFinite = true) (setting : Setting) :
    read setting s.toValue = .ok s := by
  have hformula : Value.lastGiven "formula" (some ("formula", .ofCase s.formula) :: s.entries) =
      some (.ofCase s.formula) := by
    cases s <;> simp [entries, EquipmentSnapshot.entries, TripSnapshot.entries,
      HeadcountSnapshot.entries, CloudSnapshot.entries, ModelSnapshot.entries]
  have hread : read setting s.toValue =
      readOf setting.later s.formula (beside s.formula s.entries) := by
    rw [read, toValue, Reader.taggedWithin_written hformula]
    rfl
  rw [hread]
  cases s with
  | equipment s =>
    change equipment <$> EquipmentSnapshot.read setting.later (beside .equipment s.entries) = _
    rw [EquipmentSnapshot.read_beside h]
    rfl
  | flight s =>
    change flight <$> TripSnapshot.read setting.later (beside .flight s.entries) = _
    rw [TripSnapshot.read_beside h]
    rfl
  | train s =>
    change train <$> TripSnapshot.read setting.later (beside .train s.entries) = _
    rw [TripSnapshot.read_beside h]
    rfl
  | headcount s =>
    change headcount <$> HeadcountSnapshot.read setting.later (beside .headcount s.entries) = _
    rw [HeadcountSnapshot.read_beside h]
    rfl
  | externalCloud s =>
    change externalCloud <$> CloudSnapshot.read setting.later (beside .externalCloud s.entries) = _
    rw [CloudSnapshot.read_beside h]
    rfl
  | externalAi s =>
    change externalAi <$> ModelSnapshot.read setting.later (beside .externalAi s.entries) = _
    rw [ModelSnapshot.read_beside h]
    rfl

end Snapshot

namespace Emission

def numbers (e : Emission) : List Float :=
  (e.kg.toList ++ (e.distanceKm.toList ++ e.annualKwh.toList)) ++ e.snapshot.numbers

/-- An emission whose numbers are all finite is read back from its data as it was, whatever its
formula and whichever entries are left out or null, provided that its time is. -/
theorem read_toValue_eq {e : Emission} (hfinite : ∀ x ∈ e.numbers, x.isFinite = true)
    (htime : Instant.read? e.computedAt.write = some e.computedAt) (setting : Setting) :
    read setting e.toValue = .ok e := by
  obtain ⟨hresults, hsnapshot⟩ := List.forall_mem_append.mp hfinite
  simp only [List.forall_mem_append, ← filter_isFinite_eq_self_iff] at hresults
  have hread : Snapshot.read setting e.snapshot.toValue = .ok e.snapshot :=
    Snapshot.read_toValue hsnapshot setting
  have hinstant : Reader.instant (.ofInstant e.computedAt) = .ok e.computedAt :=
    Reader.instant_ofInstant htime
  have hfactors : Reader.list Reader.int64 (.list (e.factors.map .ofInt64)) = .ok e.factors :=
    Reader.list_map Reader.int64_ofInt64 e.factors
  rw [read, toValue, Reader.record_ofPresent]
  simp [hresults, hread, hinstant, hfactors]

def overnightTrain : Emission where
  subject := 12
  kind := .train
  kg := some 9.76
  distanceKm := some 1220.0
  annualKwh := none
  factors := [41, -2]
  formula := "train-distance/v1"
  computedAt := ⟨1717243200, 250000000⟩
  snapshot := .train ⟨"train", 1, 2, some "Geneva", none, some .class2, 1, some 1016.5, none,
    some "CH", some 0.008, none⟩
  isCurrent := true
  reason := none

theorem overnightTrain_is_read_back :
    (∀ x ∈ overnightTrain.numbers, x.isFinite = true) ∧
      Instant.read? overnightTrain.computedAt.write = some overnightTrain.computedAt ∧
      read (.onTheSpot .json) overnightTrain.toValue = .ok overnightTrain := by
  have hfinite : ∀ x ∈ overnightTrain.numbers, x.isFinite = true := by decide +kernel
  have htime : Instant.read? overnightTrain.computedAt.write = some overnightTrain.computedAt := by
    decide +kernel
  exact ⟨hfinite, htime, read_toValue_eq hfinite htime _⟩

end Emission

end CarbonLedger
