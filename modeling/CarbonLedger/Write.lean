/-! Changes to a state in place. What a write has changed before it fails stays changed. -/

namespace CarbonLedger

abbrev Write (σ ε α : Type) := ExceptT ε (StateM σ) α

namespace Write

variable {σ ε α β : Type}

def on (w : Write σ ε α) (s : σ) : Except ε α × σ := (ExceptT.run w).run s

def outcome (w : Write σ ε α) (s : σ) : Except ε (σ × α) :=
  match w.on s with
  | (.ok a, t) => .ok (t, a)
  | (.error e, _) => .error e

theorem outcome_of_ok {w : Write σ ε α} {s t : σ} {a : α} (h : w.on s = (.ok a, t)) :
    w.outcome s = .ok (t, a) := by
  rw [outcome, h]

theorem outcome_of_error {w : Write σ ε α} {s t : σ} {e : ε} (h : w.on s = (.error e, t)) :
    w.outcome s = .error e := by
  rw [outcome, h]

@[simp]
theorem on_get (s : σ) : (get : Write σ ε σ).on s = (.ok s, s) := rfl

/-- A check changes nothing. -/
@[simp]
theorem on_lift (x : Except ε α) (s : σ) : (liftM x : Write σ ε α).on s = (x, s) := rfl

/-- What comes after a step that fails is not done. -/
theorem on_bind (w : Write σ ε α) (k : α → Write σ ε β) (s : σ) :
    (w >>= k).on s =
      match w.on s with
      | (.ok a, t) => (k a).on t
      | (.error e, t) => (.error e, t) := by
  have h : (w >>= k).on s = (ExceptT.bindCont k (w.on s).1).run (w.on s).2 := rfl
  rw [h]
  obtain ⟨answer, t⟩ := w.on s
  cases answer <;> rfl

/-- The answer of a write can be read in another way. -/
theorem on_map (f : α → β) (w : Write σ ε α) (s : σ) :
    (f <$> w).on s = (f <$> (w.on s).1, (w.on s).2) := by
  have h : (f <$> w).on s = (w >>= fun a => pure (f a)).on s := rfl
  rw [h, on_bind]
  obtain ⟨answer, t⟩ := w.on s
  cases answer <;> rfl

/-- An error can be read in another way. -/
theorem on_adapt {ε' : Type} (f : ε → ε') (w : Write σ ε α) (s : σ) :
    on (ExceptT.adapt f w : Write σ ε' α) s = ((w.on s).1.mapError f, (w.on s).2) := rfl

/-- Checks pass together if each passes. -/
theorem forM_eq_ok_iff {check : β → Except ε PUnit} {l : List β} :
    forM l check = .ok ⟨⟩ ↔ ∀ b ∈ l, check b = .ok ⟨⟩ := by
  induction l with
  | nil => simp [pure, Except.pure]
  | cons b r ih =>
    rw [List.forM_cons, List.forall_mem_cons, ← ih]
    cases h : check b with
    | ok u => exact (and_iff_right rfl).symm
    | error e => simp [bind, Except.bind]

/-- Where checks fail together, one of them fails so. -/
theorem exists_of_forM_eq_error {check : β → Except ε PUnit} {l : List β} {e : ε}
    (h : forM l check = .error e) : ∃ b ∈ l, check b = .error e := by
  induction l with
  | nil => cases h
  | cons b r ih =>
    rw [List.forM_cons] at h
    cases hb : check b with
    | ok u =>
      rw [hb] at h
      obtain ⟨k, hk, hfails⟩ := ih h
      exact ⟨k, List.mem_cons_of_mem _ hk, hfails⟩
    | error e' =>
      rw [hb] at h
      cases h
      exact ⟨b, List.mem_cons_self, hb⟩

end Write

end CarbonLedger
