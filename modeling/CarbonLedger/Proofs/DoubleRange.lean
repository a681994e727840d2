import CarbonLedger.Decimal.Rounding
import CarbonLedger.Proofs.DoubleRounding
import Mathlib.Tactic.Linarith

/-! The range of arithmetic on doubles: a sum or a product is finite exactly if both numbers are and
the exact result is below the limit. -/

namespace CarbonLedger.Decimal
open Float.Model Float.Model.UnpackedFloat

def exact (x : Float) : ℚ :=
  match meaning x with
  | .finite negative mantissa exponent => (if negative then -1 else 1) * mantissa * 2 ^ exponent
  | _ => 0

section Bits
variable (b : BitVec 64)

theorem toNat_unpackExponent :
    (@unpackExponent .binary64 b).toNat = b.toNat / hiddenBit % 0x800 := by
  simp [unpackExponent, BitVec.extractLsb_toNat, Nat.shiftRight_eq_div_pow, hiddenBit]

theorem toNat_unpackMantissa :
    (@unpackMantissa .binary64 b).toNat = b.toNat % hiddenBit := by
  simp [unpackMantissa, BitVec.extractLsb_toNat, hiddenBit]

theorem ofBitVec_unpackSign :
    (Sign.ofBitVec (@unpackSign .binary64 b) == .negative) =
      decide (0x8000000000000000 ≤ b.toNat) := by
  have hsign : @unpackSign .binary64 b = 0#1 ↔
      ¬ 0x8000000000000000 ≤ b.toNat := by
    have hlt : b.toNat < 2 ^ 64 := b.isLt
    rw [← BitVec.toNat_inj]
    simp only [unpackSign, BitVec.toNat_cast, BitVec.extractLsb_toNat,
      Nat.shiftRight_eq_div_pow, BitVec.toNat_ofNat]
    omega
  rw [Sign.ofBitVec]
  by_cases h : 0x8000000000000000 ≤ b.toNat
  · rw [if_neg (fun hs => hsign.mp hs h), decide_eq_true h]
    rfl
  · rw [if_pos (hsign.mpr h), decide_eq_false h]
    rfl

end Bits

def meaningOf : UnpackedFloat → Meaning
  | .infinity s => .infinite (s == .negative)
  | .notANumber => .notANumber
  | .zero s => .finite (s == .negative) 0 leastExponent
  | .finite s m e _ => .finite (s == .negative) m e

theorem meaning_eq (x : Float) : meaning x = meaningOf x.toModel.unpack := by
  have hbits : x.toBits.toNat = x.toModel.toBits.toBitVec.toNat := rfl
  rw [meaning, Float.Model.unpack, hbits]
  generalize x.toModel.toBits.toBitVec = b
  simp only [← ofBitVec_unpackSign b, ← toNat_unpackExponent b, ← toNat_unpackMantissa b,
    UnpackedFloat.unpack, beq_iff_eq]
  -- Both sides look at the same fields, once as numbers and once as bits.
  have hones : (@unpackExponent .binary64 b).toNat = 2047 ↔
      @unpackExponent .binary64 b = -1#_ := by
    rw [← BitVec.toNat_inj]
    rfl
  have hzeros : (@unpackExponent .binary64 b).toNat = 0 ↔
      @unpackExponent .binary64 b = 0#_ := by
    rw [← BitVec.toNat_inj]
    rfl
  have hfraction : (@unpackMantissa .binary64 b).toNat = 0 ↔
      @unpackMantissa .binary64 b = 0#_ := by
    rw [← BitVec.toNat_inj]
    rfl
  simp only [hones, hzeros, hfraction]
  split
  · split <;> rfl
  · split
    · next hleast =>
      split
      · next hzero =>
        simp only [hzero]
        rfl
      · simp only [hleast]
        rfl
    · next hnormal =>
      have hpos : (@unpackExponent .binary64 b).toNat ≠ 0 := mt hzeros.mp hnormal
      have hm : (1#1 ++ @unpackMantissa .binary64 b).toNat =
          hiddenBit + (@unpackMantissa .binary64 b).toNat := by
        rw [BitVec.toNat_append, ← Nat.shiftLeft_add_eq_or_of_lt (BitVec.isLt _)]
        rfl
      have he : leastExponent + ((@unpackExponent .binary64 b).toNat - 1 : ℕ) =
          ((@unpackExponent .binary64 b).toNat : Int) -
            (Format.binary64.exponentBias + Format.binary64.mantissaBitsWithoutImplicit : Nat) := by
        change (-1074 : Int) + _ = _ - 1075
        omega
      rw [meaningOf, hm, he]
      rfl

/-- A finite double is a whole number of at most 53 bits, scaled. -/
theorem bounds_of_meaning {x : Float} {negative : Bool} {m : Nat} {e : Int}
    (h : meaning x = .finite negative m e) :
    m < 2 ^ 53 ∧ -1074 ≤ e ∧ e ≤ 971 ∧ (2 ^ 52 ≤ m ∨ e = -1074) := by
  rw [meaning] at h
  simp only [hiddenBit, leastExponent, beq_iff_eq] at h
  split at h
  · split at h <;> cases h
  · split at h
    · cases h
      omega
    · cases h
      omega

section Unpacked

def valueOf : UnpackedFloat → ℚ
  | .finite s m e _ => s.apply m * 2 ^ e
  | _ => 0

def Canonical : UnpackedFloat → Prop
  | .finite _ m e _ => m < 2 ^ 53 ∧ -1074 ≤ e ∧ e ≤ 971 ∧ (2 ^ 52 ≤ m ∨ e = -1074)
  | _ => True

theorem canonical_unpack (x : Float) : Canonical x.toModel.unpack := by
  have h := meaning_eq x
  cases hu : x.toModel.unpack with
  | finite s m e hm =>
    rw [hu] at h
    exact bounds_of_meaning h
  | _ => trivial

/-- The exact value of a double is the value of its parts. -/
theorem exact_eq (x : Float) : exact x = valueOf x.toModel.unpack := by
  rw [exact, meaning_eq]
  cases x.toModel.unpack with
  | finite s m e h =>
    cases s with
    | negative =>
      have hs : (Sign.negative == .negative) = true := rfl
      simp only [meaningOf, hs]
      simp [valueOf, Sign.apply]
    | positive =>
      have hs : (Sign.positive == .negative) = false := rfl
      simp only [meaningOf, hs]
      simp [valueOf, Sign.apply]
  | zero s => simp [meaningOf, valueOf]
  | _ => rfl

variable {u v : UnpackedFloat}

theorem abs_valueOf (s : Sign) (m : Nat) (e : Int) (h : 0 < m) :
    |valueOf (.finite s m e h)| = m * 2 ^ e := by
  have hsign : |((s.apply m : Int) : ℚ)| = m := by cases s <;> simp [Sign.apply]
  rw [valueOf, abs_mul, hsign, abs_of_pos (zpow_pos two_pos e)]

/-- The largest double is a whole step below what would be rounded to the next one. -/
theorem abs_valueOf_lt (h : Canonical u) : |valueOf u| < limit := by
  cases u with
  | finite s m e hm =>
    obtain ⟨hlt, _, he, _⟩ := h
    have hm1 : (m : ℚ) + 1 ≤ 2 ^ 53 := by exact_mod_cast hlt
    have hunit : (2 : ℚ) ^ e ≤ 2 * 2 ^ (970 : ℤ) := by
      rw [← zpow_one_add₀ two_ne_zero]
      exact zpow_le_zpow_right₀ one_le_two he
    have hpos : (0 : ℚ) < 2 ^ (970 : ℤ) := zpow_pos two_pos _
    rw [abs_valueOf, limit_eq]
    generalize (2 : ℚ) ^ (970 : ℤ) = unit at hunit hpos
    calc (m : ℚ) * 2 ^ e
      _ ≤ m * (2 * unit) := mul_le_mul_of_nonneg_left hunit (Nat.cast_nonneg m)
      _ = 2 * m * unit := by ring
      _ < (2 ^ 54 - 1) * unit := mul_lt_mul_of_pos_right (by linarith) hpos
  | _ => simp [valueOf, limit_pos]

theorem isFinite_pack_of_canonical (h : Canonical u) :
    (Float.Model.pack u).isFinite = u.isFinite := by
  cases u with
  | finite s m e hm =>
    rw [Bool.eq_iff_iff, isFinite_pack_finite]
    exact iff_of_true h.2.2.1 rfl
  | zero s => exact isFinite_pack_zero s
  | infinity s => exact isFinite_pack_infinity s
  | notANumber => exact isFinite_pack_notANumber

/-- The exponent of a product does not fall when it is rounded. -/
theorem le_roundingExponent_mul {m n : Nat} {e d : Int} (hm : 0 < m) (hn : 0 < n)
    (he : 2 ^ 52 ≤ m ∨ e = -1074) (hd : 2 ^ 52 ≤ n ∨ d = -1074) :
    e + d ≤ roundingExponent (m * n) (e + d) := by
  rw [roundingExponent, le_max_iff]
  by_cases hlong : 2 ^ 52 ≤ m * n
  · have hlog : 52 ≤ (m * n).log2 := (Nat.le_log2 (Nat.mul_pos hm hn).ne').mpr hlong
    left
    omega
  · -- Both factors are subnormal then.
    have hm' : ¬ 2 ^ 52 ≤ m := fun h => hlong (h.trans (Nat.le_mul_of_pos_right m hn))
    have hn' : ¬ 2 ^ 52 ≤ n := fun h => hlong (h.trans (Nat.le_mul_of_pos_left n hm))
    right
    omega

/-- A product is finite when its factors are and its exact value is below the limit. -/
theorem isFinite_pack_mul (hu : Canonical u) (hv : Canonical v) :
    (Float.Model.pack (UnpackedFloat.mul Format.binary64 u v)).isFinite = true ↔
      u.isFinite = true ∧ v.isFinite = true ∧ |valueOf u * valueOf v| < limit := by
  cases u with
  | notANumber => simp [UnpackedFloat.mul, isFinite_pack_notANumber, UnpackedFloat.isFinite]
  | infinity s =>
    cases v <;> simp [UnpackedFloat.mul, isFinite_pack_notANumber, isFinite_pack_infinity,
      UnpackedFloat.isFinite]
  | zero s =>
    cases v <;> simp [UnpackedFloat.mul, isFinite_pack_notANumber, isFinite_pack_zero,
      UnpackedFloat.isFinite, valueOf, limit_pos]
  | finite s m e hm =>
    cases v with
    | finite t n d hn =>
      have hproduct : (m : ℚ) * 2 ^ e * (n * 2 ^ d) = ((m * n : ℕ) : ℚ) * 2 ^ (e + d) := by
        rw [zpow_add₀ two_ne_zero, Nat.cast_mul]
        ring
      have hlong := le_roundingExponent_mul hm hn hu.2.2.2 hv.2.2.2
      simp only [UnpackedFloat.mul, UnpackedFloat.isFinite, true_and, abs_mul, abs_valueOf]
      rw [hproduct]
      exact isFinite_roundWithAccuracy_iff _ _ _ hlong
    | _ => simp [UnpackedFloat.mul, isFinite_pack_notANumber, isFinite_pack_zero,
        isFinite_pack_infinity, UnpackedFloat.isFinite, valueOf, limit_pos]

end Unpacked

section Arithmetic
variable (x y : Float)

theorem abs_exact_lt : |exact x| < limit := by
  rw [exact_eq]
  exact abs_valueOf_lt (canonical_unpack x)

theorem isFinite_mul_iff : (x * y).isFinite = true ↔
    x.isFinite = true ∧ y.isFinite = true ∧ |exact x * exact y| < limit := by
  rw [exact_eq, exact_eq]
  exact isFinite_pack_mul (canonical_unpack x) (canonical_unpack y)

theorem isFinite_neg : (-x).isFinite = x.isFinite := by
  have hcanonical := canonical_unpack x
  have hneg : (-x).isFinite = (Float.Model.pack x.toModel.unpack.neg).isFinite := rfl
  have hx : x.isFinite = x.toModel.unpack.isFinite := rfl
  rw [hneg, hx]
  cases hu : x.toModel.unpack with
  | finite s m e h =>
    rw [hu] at hcanonical
    exact isFinite_pack_of_canonical (u := .finite (-s) m e h) hcanonical
  | zero s => exact isFinite_pack_zero _
  | infinity s => exact isFinite_pack_infinity _
  | notANumber => exact isFinite_pack_notANumber

end Arithmetic

section WholeNumbers

theorem natCast_lt_limit {n : Nat} (h : n < 2 ^ 64) : (n : ℚ) < limit := by
  have hn : (n : ℚ) < 2 ^ (64 : ℤ) := by
    rw [zpow_ofNat]
    exact_mod_cast h
  have hle : (2 : ℚ) ^ (64 : ℤ) ≤ 2 ^ (1023 : ℤ) := zpow_le_zpow_right₀ one_le_two (by decide)
  exact hn.trans_le (hle.trans two_zpow_lt_limit.le)

theorem isFinite_pack_ofNat {n : Nat} (h : n < 2 ^ 64) :
    (Float.Model.pack (UnpackedFloat.ofNat Format.binary64 n)).isFinite = true := by
  rw [UnpackedFloat.ofNat, UnpackedFloat.ofInt, isFinite_normalize_iff, Int.cast_natCast,
    Nat.abs_cast, zpow_zero, mul_one]
  exact natCast_lt_limit h

theorem isFinite_ofNat_of_lt {n : Nat} (h : n < 2 ^ 53) : (Float.ofNat n).isFinite = true := by
  have hone : exact (Float.ofBits 0x3FF0000000000000) = 1 := by
    have hmeaning : meaning (Float.ofBits 0x3FF0000000000000) = .finite false (2 ^ 52) (-52) := by
      decide +kernel
    rw [exact, hmeaning]
    norm_num
  have hfinite : (Float.ofBits 0x3FF0000000000000).isFinite = true := by decide +kernel
  have hn : n.toUInt64.toFloat.isFinite = true := isFinite_pack_ofNat n.toUInt64.toNat_lt
  have hproduct : Float.ofNat n = n.toUInt64.toFloat * Float.ofBits 0x3FF0000000000000 := by
    change Float.ofScientific n false 0 = _
    rw [Float.ofScientific, dif_pos ⟨h, by decide⟩]
    rfl
  rw [hproduct, isFinite_mul_iff, hone, mul_one]
  exact ⟨hn, hfinite, abs_exact_lt _⟩

/-- A whole number with more bits than a double is given these bits before it is rounded. -/
theorem isFinite_ofNat_of_le {n : Nat} (hlong : 2 ^ 53 ≤ n) (h : n < 2 ^ 64) :
    (Float.ofNat n).isFinite = true := by
  have hmodel : (Float.ofNat n).isFinite = (Float.Model.ofScientific n 0).isFinite := by
    change (Float.ofScientific n false 0).isFinite = _
    rw [Float.ofScientific, dif_neg (by omega)]
    rfl
  have hlow : ¬ (0 : Int) < -(2 ^ Format.binary64.exponentBits + (n.log2 : Int)) := by
    have hbits : (0 : Int) < 2 ^ Format.binary64.exponentBits := by decide
    omega
  rw [hmodel, Float.Model.ofScientific, UnpackedFloat.ofScientific, dif_neg (by omega),
    if_neg (by decide), if_neg hlow, if_pos (le_refl _)]
  simp only [UnpackedFloat.mul, Int.toNat_zero, pow_zero, mul_one, add_zero]
  have hlog : (n <<< Format.binary64.mantissaBits).log2 = n.log2 + 53 :=
    log2_shiftLeft n 53 (by omega)
  have hbits : (Format.binary64.mantissaBits : Int) = 53 := rfl
  apply (isFinite_roundWithAccuracy_iff _ _ _ ?_).mpr
  · have hvalue := shiftLeft_mul_zpow n 0 Format.binary64.mantissaBits
    rw [zero_sub, zpow_zero, mul_one] at hvalue
    rw [hvalue]
    exact natCast_lt_limit h
  · rw [roundingExponent, le_max_iff, hlog, hbits]
    omega

/-- Whole numbers of 64 bits become finite doubles. -/
theorem isFinite_ofNat {n : Nat} (h : n < 2 ^ 64) : (Float.ofNat n).isFinite = true := by
  by_cases hlong : 2 ^ 53 ≤ n
  · exact isFinite_ofNat_of_le hlong h
  · exact isFinite_ofNat_of_lt (Nat.lt_of_not_le hlong)

/-- Every whole number of 64 bits, with a sign or without one, becomes a finite double. -/
theorem isFinite_ofInt {n : Int} (hmin : -2 ^ 63 ≤ n) (hmax : n < 2 ^ 64) :
    (Float.ofInt n).isFinite = true := by
  cases n with
  | ofNat k =>
    have hk : k < 2 ^ 64 := by
      rw [Int.ofNat_eq_natCast] at hmax
      omega
    exact isFinite_ofNat hk
  | negSucc k =>
    have hk : k.succ < 2 ^ 64 := by omega
    have hneg : (Float.ofInt (.negSucc k)).isFinite = (-Float.ofNat k.succ).isFinite := rfl
    rw [hneg, isFinite_neg]
    exact isFinite_ofNat hk

end WholeNumbers

end CarbonLedger.Decimal
