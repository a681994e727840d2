import CarbonLedger.Calendar.Written
import CarbonLedger.Factor.Resolution
import CarbonLedger.Write

/-! The catalog of factors, with all versions of each. No two factors have one id, and no two
current factors are versions of each other. -/

namespace CarbonLedger

inductive CatalogError
  | idTaken (id : Int64)
  /-- The factor would be current beside the current version `current`. -/
  | slotTaken (factor : Factor) (current : Int64)
  /-- A replacement would leave the version before it no time to hold. -/
  | startsTooEarly (current : Factor) (start : Instant)

namespace CatalogError

def reason : CatalogError → String
  | .idTaken id => "factor id " ++ toString id.toInt ++ " already exists"
  | .slotTaken factor current =>
    "factor " ++ toString factor.id.toInt ++ " would be a second current " ++ factor.kind.name ++
      " factor for " ++ factor.classification.shown ++ " (current: " ++
      toString current.toInt ++ ")"
  | .startsTooEarly current start =>
    current.kind.name ++ " factor " ++ toString current.id.toInt ++ " for " ++
      current.classification.shown ++ " is valid from " ++ current.validFrom.shown ++
      "; replacement must start later than that (got " ++ start.shown ++ ")"

def message (e : CatalogError) : String := "Invalid factor: " ++ e.reason

end CatalogError

/-- How a replacement fails: the catalog gives an error back, or there is no 64-bit number left for
the new id, and the call does not return. -/
inductive Halt
  | refused (e : CatalogError)
  | overflow

structure Catalog where
  factors : List Factor

structure Supersession where
  retired : List Int64
  inserted : Factor

namespace Catalog

def empty : Catalog := ⟨[]⟩

instance : Inhabited Catalog := ⟨empty⟩

def current? (c : Catalog) (f : Factor) : Option Factor :=
  c.factors.find? fun g => g.isCurrent && g.sharesSlot f

def accept (c : Catalog) (f : Factor) : Except CatalogError Unit :=
  if c.factors.any fun g => g.id == f.id then .error (.idTaken f.id)
  else if f.isCurrent then
    match c.current? f with
    | some g => .error (.slotTaken f g.id)
    | none => .ok ()
  else .ok ()

/-- A factor can come in under its own id exactly when no factor has the id and, if it is current,
no current version of it is there. -/
theorem accept_eq_ok_iff {c : Catalog} {f : Factor} :
    c.accept f = .ok () ↔
      (∀ g ∈ c.factors, g.id ≠ f.id) ∧ (f.isCurrent = true → c.current? f = none) := by
  rw [accept]
  split
  · next h =>
    obtain ⟨g, hg, he⟩ := List.any_eq_true.1 h
    constructor
    · intro h
      cases h
    · intro h
      exact absurd (eq_of_beq he) (h.1 g hg)
  · next h =>
    have hfree : ∀ g ∈ c.factors, g.id ≠ f.id := by
      intro g hg he
      exact h (List.any_eq_true.2 ⟨g, hg, beq_iff_eq.2 he⟩)
    rw [and_iff_right hfree]
    cases f.isCurrent <;> cases c.current? f <;> simp

def place (f : Factor) (factors : List Factor) : List Factor :=
  factors.takeWhile (fun g => g.id < f.id) ++ f :: factors.dropWhile fun g => g.id < f.id

/-- A factor that is put in its place comes on top of those that are there. -/
theorem place_perm (f : Factor) (factors : List Factor) :
    (place f factors).Perm (f :: factors) := by
  have h : (f :: factors.takeWhile (fun g => g.id < f.id) ++
      factors.dropWhile fun g => g.id < f.id) = f :: factors := by
    rw [List.cons_append, List.takeWhile_append_dropWhile]
  rw [place, ← h]
  exact List.perm_middle

theorem mem_place {f g : Factor} {factors : List Factor} :
    g ∈ place f factors ↔ g = f ∨ g ∈ factors := by
  rw [(place_perm f factors).mem_iff, List.mem_cons]

def enter (f : Factor) : Write Catalog CatalogError Unit := do
  (← get).accept f
  modify fun c => ⟨place f c.factors⟩

/-- A factor comes in exactly if it is accepted, and a refused one changes nothing. -/
theorem on_enter (f : Factor) (c : Catalog) :
    (enter f).on c =
      match c.accept f with
      | .ok () => (.ok (), ⟨place f c.factors⟩)
      | .error e => (.error e, c) := by
  simp only [enter, Write.on_bind, Write.on_get, Write.on_lift]
  cases h : c.accept f <;> rfl

def insert (c : Catalog) (f : Factor) : Except CatalogError Catalog :=
  (·.1) <$> (enter f).outcome c

def ofList (factors : List Factor) : Except CatalogError Catalog := factors.foldlM insert empty

def maxId (c : Catalog) : Int64 :=
  match c.factors with
  | [] => 0
  | f :: r => r.foldl (fun m g => if m < g.id then g.id else m) f.id

/-- The sum of an id and 1, unless it is no 64-bit number any more. -/
def idAfter? (id : Int64) : Option Int64 := if id = Int64.maxValue then none else some (id + 1)

def nextId? (c : Catalog) : Option Int64 := idAfter? c.maxId

def acceptAfter (current : Factor) (start : Instant) : Except CatalogError Unit :=
  if start ≤ current.validFrom then .error (.startsTooEarly current start) else .ok ()

/-- A current version may only end after it has started. -/
theorem acceptAfter_eq_ok_iff {current : Factor} {start : Instant} :
    acceptAfter current start = .ok () ↔ current.validFrom < start := by
  rw [acceptAfter]
  split
  · next h =>
    constructor
    · intro h
      cases h
    · intro hlt
      exact absurd hlt (Instant.not_lt.2 h)
  · next h => exact ⟨fun _ => Instant.not_le.1 h, fun _ => rfl⟩

def endedBy (d : Draft) (g : Factor) : Bool :=
  g.isCurrent && g.kind == d.kind && g.classification == d.classification

def endFor (d : Draft) (g : Factor) : Factor :=
  if endedBy d g then { g with validTo := some d.validFrom } else g

@[simp]
theorem id_endFor (d : Draft) (g : Factor) : (endFor d g).id = g.id := by
  rw [endFor]
  split <;> rfl

@[simp]
theorem kind_endFor (d : Draft) (g : Factor) : (endFor d g).kind = g.kind := by
  rw [endFor]
  split <;> rfl

@[simp]
theorem classification_endFor (d : Draft) (g : Factor) :
    (endFor d g).classification = g.classification := by
  rw [endFor]
  split <;> rfl

def acceptDraft (c : Catalog) (d : Draft) : Except CatalogError Unit :=
  forM (c.factors.filter (endedBy d)) fun g => acceptAfter g d.validFrom

/-- Replaces the current version of a draft's factor. The version before ends where the draft
starts, and the draft comes in at the end under a new id. -/
def renew (d : Draft) : Write Catalog Halt Supersession := do
  let c ← get
  let some id := c.nextId? | throw .overflow
  let inserted := d.toFactor id
  -- All versions are checked before one of them is ended.
  (c.acceptDraft d).mapError Halt.refused
  modify fun c => ⟨c.factors.map (endFor d)⟩
  modify fun c => ⟨c.factors ++ [inserted]⟩
  return ⟨(c.factors.filter (endedBy d)).map (·.id), inserted⟩

def renewed (c : Catalog) (d : Draft) (id : Int64) : Catalog :=
  ⟨c.factors.map (endFor d) ++ [d.toFactor id]⟩

/-- What a replacement can do. It fails without an id for the draft, or for a version that the draft
would leave no time to hold, and then changes nothing; otherwise the draft comes in. -/
theorem renew_cases (d : Draft) (c : Catalog) :
    (c.nextId? = none ∧ (renew d).on c = (.error .overflow, c)) ∨
    ∃ id, c.nextId? = some id ∧
      ((∃ g ∈ c.factors, endedBy d g = true ∧ d.validFrom ≤ g.validFrom ∧
        (renew d).on c = (.error (.refused (.startsTooEarly g d.validFrom)), c)) ∨
      ((∀ g ∈ c.factors, endedBy d g = true → g.validFrom < d.validFrom) ∧
        (renew d).on c =
          (.ok ⟨(c.factors.filter (endedBy d)).map (·.id), d.toFactor id⟩, c.renewed d id))) := by
  cases hid : c.nextId? with
  | none =>
    refine Or.inl ⟨rfl, ?_⟩
    simp only [renew, Write.on_bind, Write.on_get, hid]
    rfl
  | some id =>
    refine Or.inr ⟨id, rfl, ?_⟩
    simp only [renew, Write.on_bind, Write.on_get, hid, Write.on_lift]
    cases hchecked : c.acceptDraft d with
    | ok u =>
      refine Or.inr ⟨?_, rfl⟩
      intro g hg hended
      have hok := Write.forM_eq_ok_iff.1 hchecked g (List.mem_filter.2 ⟨hg, hended⟩)
      exact acceptAfter_eq_ok_iff.1 hok
    | error e =>
      obtain ⟨g, hg, he⟩ := Write.exists_of_forM_eq_error hchecked
      obtain ⟨hmem, hended⟩ := List.mem_filter.1 hg
      rw [acceptAfter] at he
      split at he
      · next hle =>
        cases he
        exact Or.inl ⟨g, hmem, hended, hle, rfl⟩
      · cases he

def supersede (c : Catalog) (d : Draft) : Except Halt (Catalog × Supersession) :=
  (renew d).outcome c

/-- A replacement that succeeds leaves the renewed catalog under a fresh id. -/
theorem supersede_eq_ok {c c' : Catalog} {d : Draft} {s : Supersession}
    (h : c.supersede d = .ok (c', s)) : ∃ id, c.nextId? = some id ∧ c' = c.renewed d id := by
  rw [supersede] at h
  rcases renew_cases d c with ⟨_, hon⟩ | ⟨id, hid, ⟨g, _, _, _, hon⟩ | ⟨_, hon⟩⟩
  · rw [Write.outcome_of_error hon] at h
    cases h
  · rw [Write.outcome_of_error hon] at h
    cases h
  · rw [Write.outcome_of_ok hon] at h
    cases h
    exact ⟨id, hid, rfl⟩

def ofKind (c : Catalog) (kind : EmissionKind) : List Factor :=
  c.factors.filter fun f => f.kind == kind

theorem mem_ofKind {c : Catalog} {kind : EmissionKind} {f : Factor} :
    f ∈ c.ofKind kind ↔ f ∈ c.factors ∧ f.kind = kind := by
  rw [ofKind, List.mem_filter, beq_iff_eq]

def resolve (c : Catalog) (q : Query) : Option Resolution := q.resolveAnywhere (c.ofKind q.kind)

end Catalog

end CarbonLedger
