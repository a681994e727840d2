import CarbonLedger.Proofs.FactorProvenance
import CarbonLedger.Proofs.FailedRuns

namespace CarbonLedger

/-- All or nothing: the emissions of an evaluation are of one subject and of different kinds, either
all of them were worked out or none was, and each tells why it was not if it was not. -/
structure Evaluation.Whole (e : Evaluation) (subject : Int64) : Prop where
  nonempty : e.emissions ≠ []
  ofSubject : ∀ m ∈ e.emissions, m.subject = subject
  kinds : (e.emissions.map (·.kind)).Nodup
  complete : (∀ m ∈ e.emissions, m.isComplete = true) ∨ ∀ m ∈ e.emissions, m.isComplete = false
  reason : ∀ m ∈ e.emissions, m.reason.isSome = true ↔ m.kg = none

namespace Factor
variable {f : Factor}

theorem exists_need_iff {key : String} :
    (∃ x, f.need key = .ok x) ↔ (f.quantities.usable? key).isSome = true := by
  rw [need]
  cases f.quantities.usable? key <;> simp

theorem exists_staff_iff :
    (∃ p : StaffFactor, Payload.ofFactor f = .ok p) ↔ f.kind = .headcount ∧
      ∀ kind ∈ EmissionKind.ofHeadcount,
        (f.quantities.usable? (kind.name ++ "_kg")).isSome = true := by
  have hkinds : (∀ kind ∈ EmissionKind.ofHeadcount,
        (f.quantities.usable? (kind.name ++ "_kg")).isSome = true) ↔
      (∃ x, f.need "food_kg" = .ok x) ∧ (∃ x, f.need "waste_kg" = .ok x) ∧
        (∃ x, f.need "transport_kg" = .ok x) ∧ ∃ x, f.need "grey_energy_kg" = .ok x := by
    simp only [EmissionKind.ofHeadcount, List.forall_mem_cons, List.not_mem_nil, false_implies,
      implies_true, and_true, exists_need_iff]
    rfl
  rw [hkinds]
  constructor
  · rintro ⟨p, hp⟩
    obtain ⟨_, hkind, hp⟩ := bind_eq_ok.mp hp
    obtain ⟨food, hfood, hp⟩ := bind_eq_ok.mp hp
    obtain ⟨waste, hwaste, hp⟩ := bind_eq_ok.mp hp
    obtain ⟨transport, htransport, hp⟩ := bind_eq_ok.mp hp
    obtain ⟨grey, hgrey, _⟩ := bind_eq_ok.mp hp
    exact ⟨kind_of_ofKind hkind, ⟨food, hfood⟩, ⟨waste, hwaste⟩, ⟨transport, htransport⟩,
      grey, hgrey⟩
  · rintro ⟨hkind, ⟨food, hfood⟩, ⟨waste, hwaste⟩, ⟨transport, htransport⟩, grey, hgrey⟩
    have hkind : f.ofKind .headcount = .ok () := if_pos hkind
    refine ⟨⟨f.id, food, waste, transport, grey⟩, ?_⟩
    simp only [Payload.ofFactor, hkind, hfood, hwaste, htransport, hgrey]
    rfl

end Factor

namespace Basis
variable {b : Basis} {r : ActivityRecord} {computedAt : Instant} {e : Evaluation}

theorem isOk_lookup_iff {α : Type} [Payload α] {q : Query} :
    (b.lookup (α := α) q).1.isOk = true ↔
      ∃ res, b.resolve q = some res ∧ ∃ p : α, Payload.ofFactor res.factor = .ok p := by
  rw [lookup]
  cases b.resolve q with
  | none => simp [Except.isOk, Except.toBool]
  | some res =>
    simp only [Option.some.injEq, exists_eq_left']
    cases Payload.ofFactor (α := α) res.factor <;> simp [Except.isOk, Except.toBool]

/-- A headcount is complete if its factor has a usable number for each kind. One number that is
missing leaves all four emissions without kilograms. -/
theorem headcount_complete_iff {subject : Int64} {h : Headcount}
    (he : b.evaluate ⟨subject, .headcount h⟩ computedAt = .ok e) :
    (∀ m ∈ e.emissions, m.isComplete = true) ↔
      ∃ res, b.resolve (.headcount h.category) = some res ∧ res.factor.kind = .headcount ∧
        ∀ kind ∈ EmissionKind.ofHeadcount,
          (res.factor.quantities.usable? (kind.name ++ "_kg")).isSome = true := by
  cases he
  simp only [← Factor.exists_staff_iff, ← isOk_lookup_iff, List.forall_mem_map]
  constructor
  · intro hcomplete
    obtain ⟨c, hc⟩ : ∃ c, c ∈ (b.headcount h).calculations := ⟨_, List.mem_cons_self⟩
    exact (Headcount.isSome_kg hc).symm.trans (hcomplete c hc)
  · intro hok c hc
    exact (Headcount.isSome_kg hc).trans hok

/-- Every evaluation is whole. -/
theorem whole_of_evaluate (h : b.evaluate r computedAt = .ok e) : e.Whole r.subject where
  nonempty := emissions_ne_nil h
  ofSubject _ hm := subject_of_mem_emissions h hm
  kinds := nodup_kinds h
  complete := emissions_complete_alike h
  reason _ hm := reason_of_mem_emissions h hm

end Basis

namespace Ledger

/-- No subject fails because its rows cannot be committed. -/
theorem Fails.ne_commit {l : Ledger} {b : Basis} {requireComplete : Bool} {computedAt : Instant}
    {subject : Int64} {e : RunError} (h : l.Fails b requireComplete computedAt subject e)
    (f : CommitError) : e ≠ .commit f := by
  cases h <;> exact RunError.noConfusion

/-- Every evaluation is whole, and can be committed exactly if it is complete. So no run on any
ledger, whatever its rows and activities, ends because a commit is refused. -/
theorem evaluations_can_be_committed (b : Basis) (computedAt : Instant) :
    (∀ r e, b.evaluate r computedAt = .ok e → e.Whole r.subject ∧
      (check e.emissions = .ok () ↔ ∀ m ∈ e.emissions, m.isComplete = true)) ∧
    ∀ (l : Ledger) (options : RunOptions) (subjects : List Int64) (f : CommitError),
      (l.recalculate b options computedAt subjects).outcome ≠ .error (.commit f) := by
  constructor
  · intro r e he
    refine ⟨Basis.whole_of_evaluate he, ?_, check_of_evaluate he⟩
    intro hcheck
    exact (check_eq_ok_iff.mp hcheck).1
  · intro l options subjects f houtcome
    obtain ⟨x, _, hfails⟩ := exists_fails_of_outcome houtcome
    exact hfails.ne_commit f rfl

def staffRates : Basis :=
  ⟨⟨[⟨1, .headcount, .ofList [], .ofList [("food_kg", 420.0), ("waste_kg", 24.0),
        ("transport_kg", 310.0), ("grey_energy_kg", 180.0)], ⟨0, 0⟩, none⟩,
      ⟨2, .headcount, .ofList [("category", .text "student")], .ofList [("food_kg", 380.0),
        ("waste_kg", 18.0), ("transport_kg", 240.0)], ⟨0, 0⟩, none⟩]⟩,
    .empty, .default, none⟩

/-- A headcount of staff, which has a factor, and one of students, which has none. -/
theorem staff_can_be_committed :
    let staff : ActivityRecord := ⟨7, .headcount ⟨10.0, none⟩⟩
    let students : ActivityRecord := ⟨8, .headcount ⟨10.0, some "student"⟩⟩
    let l := (empty.record staff).record students
    ∃ e f, staffRates.evaluate staff ⟨9, 0⟩ = .ok e ∧
      staffRates.evaluate students ⟨9, 0⟩ = .ok f ∧ e.Whole 7 ∧ f.Whole 8 ∧
      e.emissions.map (·.kind) = [.food, .waste, .transport, .greyEnergy] ∧
      check e.emissions = .ok () ∧ (∀ m ∈ f.emissions, m.kg = none) ∧
      (∀ m ∈ f.emissions, m.reason.isSome = true) ∧ check f.emissions ≠ .ok () ∧
      ∀ c, (l.recalculate staffRates .default ⟨9, 0⟩ [7, 8]).outcome ≠ .error (.commit c) := by
  intro staff students l
  obtain ⟨hwhole, hrun⟩ := evaluations_can_be_committed staffRates ⟨9, 0⟩
  obtain ⟨e, he⟩ : ∃ e, staffRates.evaluate staff ⟨9, 0⟩ = .ok e := ⟨_, rfl⟩
  obtain ⟨f, hf⟩ : ∃ f, staffRates.evaluate students ⟨9, 0⟩ = .ok f := ⟨_, rfl⟩
  obtain ⟨hstaff, hcheck⟩ := hwhole staff e he
  obtain ⟨hstudents, hrefused⟩ := hwhole students f hf
  have hcomplete : ∀ m ∈ e.emissions, m.isComplete = true := by
    refine (Basis.headcount_complete_iff he).mpr ⟨_, rfl, rfl, ?_⟩
    intro kind hkind
    cases kind <;> first | rfl | exact absurd hkind (by decide)
  have hmissing : ¬ ∀ m ∈ f.emissions, m.isComplete = true := by
    intro h
    obtain ⟨res, hres, _, hnumbers⟩ := (Basis.headcount_complete_iff hf).mp h
    cases hres
    exact absurd (hnumbers .greyEnergy (by decide)) Bool.false_ne_true
  have hnone : ∀ m ∈ f.emissions, m.kg = none := by
    intro m hm
    have hgap : m.kg.isSome = false := hstudents.complete.resolve_left hmissing m hm
    exact Option.isNone_iff_eq_none.mp (Option.isSome_eq_false_iff.mp hgap)
  refine ⟨e, f, he, hf, hstaff, hstudents, ?_, hcheck.mpr hcomplete, hnone,
    fun m hm => (hstudents.reason m hm).mpr (hnone m hm), mt hrefused.mp hmissing, hrun _ _ _⟩
  cases he
  rfl

end Ledger

end CarbonLedger
