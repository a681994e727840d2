import CarbonLedger.Calendar.Date

namespace CarbonLedger

/-- A point in time: seconds from the start of 1970 in UTC, and nanoseconds on top. A leap second
belongs to the second before it, whose nanoseconds then count on from one thousand million. -/
structure Instant where
  seconds : Int
  nanos : Nat
  deriving Repr, DecidableEq

namespace Instant

instance : Inhabited Instant := ⟨⟨0, 0⟩⟩

instance : LT Instant where
  lt s t := s.seconds < t.seconds ∨ s.seconds = t.seconds ∧ s.nanos < t.nanos

instance : LE Instant where
  le s t := s.seconds < t.seconds ∨ s.seconds = t.seconds ∧ s.nanos ≤ t.nanos

instance (s t : Instant) : Decidable (s < t) :=
  inferInstanceAs (Decidable (s.seconds < t.seconds ∨ s.seconds = t.seconds ∧ s.nanos < t.nanos))

instance (s t : Instant) : Decidable (s ≤ t) :=
  inferInstanceAs (Decidable (s.seconds < t.seconds ∨ s.seconds = t.seconds ∧ s.nanos ≤ t.nanos))

theorem lt_def {s t : Instant} :
    s < t ↔ s.seconds < t.seconds ∨ s.seconds = t.seconds ∧ s.nanos < t.nanos := Iff.rfl

theorem le_def {s t : Instant} :
    s ≤ t ↔ s.seconds < t.seconds ∨ s.seconds = t.seconds ∧ s.nanos ≤ t.nanos := Iff.rfl

theorem not_lt {s t : Instant} : ¬ s < t ↔ t ≤ s := by
  rw [lt_def, le_def]; omega

theorem not_le {s t : Instant} : ¬ s ≤ t ↔ t < s := by
  rw [lt_def, le_def]; omega

theorem le_of_lt {s t : Instant} (h : s < t) : s ≤ t := by
  rw [lt_def] at h; rw [le_def]; omega

theorem lt_of_lt_of_le {r s t : Instant} (h : r < s) (k : s ≤ t) : r < t := by
  rw [lt_def, le_def] at *; omega

theorem le_trans {r s t : Instant} (h : r ≤ s) (k : s ≤ t) : r ≤ t := by
  rw [le_def] at *; omega

theorem le_refl (t : Instant) : t ≤ t := by
  rw [le_def]; omega

end Instant

end CarbonLedger
