import Mathlib

/-! How doubles compare and which are finite. The lemmas on doubles that are used here come with
Mathlib as a whole and with no part of it. -/

namespace CarbonLedger

section Comparing
open Float.Model

/-- Comparing the other way round swaps the answer, if there is one. -/
theorem UnpackedFloat.compare_swap (a b : UnpackedFloat) :
    b.compare a = (a.compare b).map Ordering.swap := by
  -- Numbers of one sign are compared by exponent and then by mantissa.
  have hsame (e f : Int) (m n : Nat) :
      (compare f e).then (compare n m) = ((compare e f).then (compare m n)).swap := by
    rw [Ordering.swap_then, Int.compare_swap, Nat.compare_swap]
  rcases a with (_ | _) | _ | (_ | _) | ⟨_ | _, m, e, hm⟩ <;>
    rcases b with (_ | _) | _ | (_ | _) | ⟨_ | _, n, f, hn⟩ <;>
    first
    | rfl
    | exact congrArg some (hsame e f m n)
    | exact congrArg (some ∘ Ordering.swap) (hsame e f m n)

/-- Two numbers can be compared unless one of them is not a number. -/
theorem UnpackedFloat.compare_eq_none_iff {a b : UnpackedFloat} :
    a.compare b = none ↔ a.isNaN = true ∨ b.isNaN = true := by
  rcases a with (_ | _) | _ | (_ | _) | ⟨_ | _, m, e, hm⟩ <;>
    rcases b with (_ | _) | _ | (_ | _) | ⟨_ | _, n, f, hn⟩ <;>
    simp [UnpackedFloat.compare, UnpackedFloat.isNaN]

theorem UnpackedFloat.le_eq_false_iff {a b : UnpackedFloat} :
    a.le b = false ↔ (a.isNaN = true ∨ b.isNaN = true) ∨ b.lt a = true := by
  rw [← compare_eq_none_iff, UnpackedFloat.le, UnpackedFloat.lt, compare_swap a b, beq_iff_eq]
  cases a.compare b with
  | none => simp
  | some o => cases o <;> decide

end Comparing

theorem isNaN_of_isFinite {x : Float} (h : x.isFinite = true) : x.isNaN = false := by
  have hfinite : x.isFinite = x.toModel.unpack.isFinite := rfl
  have hnan : x.isNaN = x.toModel.unpack.isNaN := rfl
  rw [hfinite] at h
  rw [hnan]
  cases hu : x.toModel.unpack with
  | notANumber =>
    rw [hu] at h
    cases h
  | _ => rfl

theorem beq_self_of_not_isNaN {x : Float} (h : x.isNaN = false) : (x == x) = true := by
  rw [Float.isNaN_eq_decide_eq_nan, decide_eq_false_iff_not] at h
  exact Float.beq_self_iff.mpr h

/-- Doubles that are not in order are in the opposite strict order, or one of them is no number. -/
theorem not_le_iff {x y : Float} : ¬ x ≤ y ↔ (x.isNaN = true ∨ y.isNaN = true) ∨ y < x := by
  have hle : ¬ x ≤ y ↔ x.toModel.unpack.le y.toModel.unpack = false := by
    rw [← Bool.not_eq_true]
    exact not_congr decide_eq_true_iff
  have hlt : y < x ↔ y.toModel.unpack.lt x.toModel.unpack = true := decide_eq_true_iff
  rw [hle, hlt]
  exact UnpackedFloat.le_eq_false_iff

namespace Decimal
open Float.Model Float.Model.UnpackedFloat

section Packing
variable (s : Sign) (m : Nat) (e : Int)

theorem isFinite_unpack_iff (b : BitVec 64) :
    (UnpackedFloat.unpack Format.binary64 b).isFinite = true ↔
      @unpackExponent .binary64 b ≠ -1#_ := by
  rw [UnpackedFloat.unpack]
  by_cases h : @unpackExponent .binary64 b = -1#_
  · simp only [h, if_true]
    split <;> simp [UnpackedFloat.isFinite]
  · simp only [h, if_false]
    split
    · split <;> simpa [UnpackedFloat.isFinite] using h
    · simpa [UnpackedFloat.isFinite] using h

theorem isFinite_pack_zero : (Float.Model.pack (.zero s)).isFinite = true := by
  cases s <;> decide +kernel

theorem isFinite_pack_infinity : (Float.Model.pack (.infinity s)).isFinite = false := by
  cases s <;> decide +kernel

theorem isFinite_pack_notANumber : (Float.Model.pack .notANumber).isFinite = false := by
  decide +kernel

/-- Packing overflows at exponents that do not fit. -/
theorem isFinite_pack_finite (h : 0 < m) :
    (Float.Model.pack (.finite s m e h)).isFinite = true ↔ e ≤ 971 := by
  rw [Float.Model.isFinite, Float.Model.unpack, Float.Model.pack, isFinite_unpack_iff]
  change unpackExponent (UnpackedFloat.pack Format.binary64 _) ≠ _ ↔ _
  have hbias : (e + (Format.binary64.exponentBias : Nat) +
      (Format.binary64.mantissaBitsWithoutImplicit : Nat)).toNat = (e + 1075).toNat := by
    rw [Int.add_assoc]
    rfl
  rw [UnpackedFloat.pack]
  simp only [hbias]
  split
  · next hbig =>
    change 2048 ≤ (e + 1075).toNat + 1 at hbig
    simp only [packedInfinity, unpackExponent_packComponents, ne_eq, not_true_eq_false, false_iff]
    omega
  · next hfits =>
    change ¬ 2048 ≤ (e + 1075).toNat + 1 at hfits
    have he : e ≤ 971 := by omega
    split
    · simp only [unpackExponent_packComponents, ne_eq, he, iff_true]
      intro hones
      have hfield := congrArg BitVec.toNat hones
      rw [BitVec.toNat_ofNat] at hfield
      change (e + 1075).toNat % 2048 = 2047 at hfield
      omega
    · simp only [unpackExponent_packComponents, ne_eq, he, iff_true]
      decide

theorem isFinite_pack_dite :
    (Float.Model.pack (if h : m = 0 then .zero s
      else .finite s m e (Nat.pos_of_ne_zero h))).isFinite = true ↔ m = 0 ∨ e ≤ 971 := by
  split
  · next h => simp [h, isFinite_pack_zero]
  · next h => simp [h, isFinite_pack_finite]

end Packing

end Decimal
end CarbonLedger
