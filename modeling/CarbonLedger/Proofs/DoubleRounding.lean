import CarbonLedger.Proofs.Doubles
import Mathlib.Algebra.Order.Field.Power
import Mathlib.Tactic.NormNum
import Mathlib.Tactic.Ring

namespace CarbonLedger.Decimal
open Float.Model Float.Model.UnpackedFloat

section Shortening
variable (em : ExtendedMantissa) (m : Nat) (a : Accuracy)

theorem mantissa_shift (k : Nat) : (em >>> k).mantissa = em.mantissa / 2 ^ k := by
  induction k with
  | zero => simp [HShiftRight.hShiftRight, Nat.repeat]
  | succ k ih =>
    change (em >>> k).mantissa / 2 = _
    rw [ih, Nat.div_div_eq_div_mul, Nat.pow_succ]

theorem roundBit_shift (k : Nat) :
    (em >>> (k + 1)).roundBit = (em.mantissa / 2 ^ k % 2 != 0) := by
  change ((em >>> k).mantissa % 2 != 0) = _
  rw [mantissa_shift]

theorem mantissa_ofMantissaAndAccuracy :
    (ExtendedMantissa.ofMantissaAndAccuracy m a).mantissa = m := by
  cases a with
  | exact => rfl
  | inexact o => cases o <;> rfl

theorem le_roundedMantissa : em.mantissa ≤ em.roundedMantissa := by
  rcases em with ⟨m, _ | _, _ | _⟩ <;>
    simp [ExtendedMantissa.roundedMantissa, ExtendedMantissa.accuracy,
      Accuracy.roundToNearestEven]

theorem roundedMantissa_le : em.roundedMantissa ≤ em.mantissa + 1 := by
  rcases em with ⟨m, _ | _, _ | _⟩ <;>
    simp [ExtendedMantissa.roundedMantissa, ExtendedMantissa.accuracy,
      Accuracy.roundToNearestEven]
  omega

/-- An odd mantissa is rounded up from half a step on, since a tie goes to the even one above. -/
theorem roundedMantissa_of_odd (h : em.mantissa % 2 = 1) :
    em.roundedMantissa = em.mantissa + em.roundBit.toNat := by
  rcases em with ⟨m, _ | _, _ | _⟩ <;>
    simp [ExtendedMantissa.roundedMantissa, ExtendedMantissa.accuracy,
      Accuracy.roundToNearestEven]
  exact h

/-- A mantissa is rounded to an even number or above exactly if it is at most half a step short of
it. -/
theorem even_le_roundedMantissa_iff (n k : Nat) :
    2 * n + 2 ≤ (ExtendedMantissa.ofMantissaAndAccuracy m a >>> (k + 1)).roundedMantissa ↔
      4 * n + 3 ≤ m / 2 ^ k := by
  generalize hem : ExtendedMantissa.ofMantissaAndAccuracy m a >>> (k + 1) = em
  have hkept : em.mantissa = m / 2 ^ k / 2 := by
    rw [← hem, mantissa_shift, mantissa_ofMantissaAndAccuracy, Nat.pow_succ,
      Nat.div_div_eq_div_mul]
  have hbit : em.roundBit = (m / 2 ^ k % 2 != 0) := by
    rw [← hem, roundBit_shift, mantissa_ofMantissaAndAccuracy]
  have hle := le_roundedMantissa em
  have hge := roundedMantissa_le em
  by_cases hlast : em.mantissa = 2 * n + 1
  · -- The digit that was cut off first decides.
    rw [roundedMantissa_of_odd em (by omega), hbit]
    rcases Nat.mod_two_eq_zero_or_one (m / 2 ^ k) with h | h
    · simp only [h, bne_self_eq_false, Bool.toNat_false]
      omega
    · have hone : ((1 : Nat) != 0) = true := rfl
      simp only [h, hone, Bool.toNat_true]
      omega
  · omega

theorem div_two_pow_lt (k : Nat) (h : m.log2 ≤ 52 + k) : m / 2 ^ k < 2 ^ 53 := by
  rw [Nat.div_lt_iff_lt_mul (Nat.two_pow_pos k), ← Nat.pow_add]
  exact Nat.lt_of_lt_of_le Nat.lt_log2_self (Nat.pow_le_pow_right Nat.two_pos (by omega))

theorem shiftLeft_ne_zero (k : Nat) (hm : m ≠ 0) : m <<< k ≠ 0 := by
  rw [Nat.shiftLeft_eq]
  exact Nat.mul_ne_zero hm (Nat.two_pow_pos k).ne'

theorem log2_shiftLeft (k : Nat) (hm : m ≠ 0) : (m <<< k).log2 = m.log2 + k := by
  rw [Nat.log2_eq_iff (shiftLeft_ne_zero m k hm), Nat.shiftLeft_eq, Nat.add_right_comm,
    Nat.pow_add, Nat.pow_add]
  exact ⟨Nat.mul_le_mul_right _ (Nat.log2_self_le hm),
    Nat.mul_lt_mul_of_pos_right Nat.lt_log2_self (Nat.two_pow_pos k)⟩

end Shortening

/-- The exponent at which a mantissa is rounded: 53 bits are left, or fewer near zero. -/
def roundingExponent (m : Nat) (e : Int) : Int := max (m.log2 + e - 52) (-1074)

def roundedAt (m : Nat) (e : Int) (a : Accuracy) : Nat :=
  (ExtendedMantissa.ofMantissaAndAccuracy m a >>>
    (roundingExponent m e - e).toNat).roundedMantissa

/-- The least magnitude that becomes infinite: it is half a step past the largest double, and the
tie goes up. -/
def limit : ℚ := 2 ^ (1024 : ℤ) - 2 ^ (970 : ℤ)

section Magnitudes
variable (m : Nat) (e : Int)

/-- The limit lies half a unit in the last place above the greatest double. -/
theorem limit_eq : limit = (2 ^ 54 - 1) * 2 ^ (970 : ℤ) := by
  have hsplit : (2 : ℚ) ^ (1024 : ℤ) = 2 ^ (54 : ℤ) * 2 ^ (970 : ℤ) := by
    rw [← zpow_add₀ two_ne_zero]
    rfl
  have hpow : (2 : ℚ) ^ (54 : ℤ) = 2 ^ 54 := zpow_ofNat 2 54
  rw [limit, hsplit, hpow]
  generalize (2 : ℚ) ^ (970 : ℤ) = unit
  ring

theorem two_zpow_lt_limit : (2 : ℚ) ^ (1023 : ℤ) < limit := by
  have hsplit : (2 : ℚ) ^ (1023 : ℤ) = 2 ^ 53 * 2 ^ (970 : ℤ) := by
    rw [← zpow_natCast, ← zpow_add₀ two_ne_zero]
    rfl
  rw [limit_eq, hsplit]
  apply mul_lt_mul_of_pos_right _ (zpow_pos two_pos _)
  norm_num

theorem limit_lt_two_zpow : limit < (2 : ℚ) ^ (1024 : ℤ) := by
  rw [limit]
  exact sub_lt_self _ (zpow_pos two_pos _)

theorem limit_pos : 0 < limit := (zpow_pos two_pos _).trans two_zpow_lt_limit

theorem mul_zpow_lt {n : Int} (h : m.log2 + e < n) : (m : ℚ) * 2 ^ e < 2 ^ n := by
  have hm : (m : ℚ) < 2 ^ (m.log2 + 1) := by exact_mod_cast Nat.lt_log2_self
  calc (m : ℚ) * 2 ^ e
    _ < 2 ^ (m.log2 + 1) * 2 ^ e := mul_lt_mul_of_pos_right hm (zpow_pos two_pos _)
    _ = 2 ^ ((m.log2 + 1 : ℕ) + e : ℤ) := by rw [zpow_add₀ two_ne_zero, zpow_natCast]
    _ ≤ 2 ^ n := zpow_le_zpow_right₀ one_le_two (by push_cast; omega)

theorem le_mul_zpow {n : Int} (hm : m ≠ 0) (h : n ≤ m.log2 + e) :
    (2 : ℚ) ^ n ≤ m * 2 ^ e := by
  have hlog : (2 : ℚ) ^ m.log2 ≤ m := by exact_mod_cast Nat.log2_self_le hm
  calc (2 : ℚ) ^ n
    _ ≤ 2 ^ ((m.log2 : ℕ) + e : ℤ) := zpow_le_zpow_right₀ one_le_two h
    _ = 2 ^ m.log2 * 2 ^ e := by rw [zpow_add₀ two_ne_zero, zpow_natCast]
    _ ≤ m * 2 ^ e := mul_le_mul_of_nonneg_right hlog (zpow_nonneg two_pos.le _)

/-- Bits put below a mantissa leave its magnitude alone. -/
theorem shiftLeft_mul_zpow (k : Nat) : ((m <<< k : ℕ) : ℚ) * 2 ^ (e - k) = m * 2 ^ e := by
  rw [Nat.shiftLeft_eq, Nat.cast_mul, Nat.cast_pow, Nat.cast_ofNat, mul_assoc, ← zpow_natCast,
    ← zpow_add₀ two_ne_zero, add_sub_cancel]

/-- At the largest exponent, whether a magnitude is below the limit can be told from whole numbers.
-/
theorem mul_zpow_lt_limit_iff (k : Nat) :
    (m : ℚ) * 2 ^ (971 - k : ℤ) < limit ↔ 2 * m < (2 ^ 54 - 1) * 2 ^ k := by
  have hsplit : (2 : ℚ) ^ (971 - k : ℤ) = 2 * 2 ^ (970 : ℤ) / 2 ^ k := by
    rw [zpow_sub₀ two_ne_zero, zpow_natCast, ← zpow_one_add₀ two_ne_zero]
    rfl
  have hunit : (0 : ℚ) < 2 ^ (970 : ℤ) := zpow_pos two_pos _
  rw [hsplit, limit_eq]
  generalize (2 : ℚ) ^ (970 : ℤ) = unit at hunit
  have hleft : (m : ℚ) * (2 * unit) = ((2 * m : ℕ) : ℚ) * unit := by
    push_cast
    ring
  have hright : ((2 : ℚ) ^ 54 - 1) * unit * 2 ^ k = (((2 ^ 54 - 1) * 2 ^ k : ℕ) : ℚ) * unit := by
    push_cast
    ring
  rw [← mul_div_assoc, div_lt_iff₀ (pow_pos two_pos k), hleft, hright,
    mul_lt_mul_iff_of_pos_right hunit, Nat.cast_lt]

end Magnitudes

section Rounding
variable (s : Sign) (m : Nat) (e : Int) (a : Accuracy)

theorem targetExponent_totalExponent :
    Format.binary64.targetExponent (totalExponent m e) = roundingExponent m e := by
  change max ((m.log2 : Int) + 1 + e - 53) (-1074) = max ((m.log2 : Int) + e - 52) (-1074)
  congr 1
  omega

/-- A mantissa that is long enough is rounded once and, if a carry made it too long, shortened once
more; it overflows where the exponent does not fit after that. -/
theorem isFinite_pack_roundWithAccuracy (h : e ≤ roundingExponent m e) :
    (Float.Model.pack (roundWithAccuracy Format.binary64 s m e a)).isFinite = true ↔
      roundedAt m e a = 0 ∨ roundingExponent m e ≤ 971 ∧
        (roundedAt m e a).log2 + roundingExponent m e ≤ 1023 := by
  have hfirst : shiftToTargetExponent Format.binary64 m e a =
      (ExtendedMantissa.ofMantissaAndAccuracy m a >>> (roundingExponent m e - e).toNat,
        roundingExponent m e) := by
    have ht : e + (roundingExponent m e - e).toNat = roundingExponent m e := by omega
    rw [shiftToTargetExponent, targetExponent_totalExponent, shiftToExponent, ht]
  have hrounded : (ExtendedMantissa.ofMantissaAndAccuracy m a >>>
      (roundingExponent m e - e).toNat).roundedMantissa = roundedAt m e a := rfl
  have hleast : -1074 ≤ roundingExponent m e := Int.le_max_right _ _
  rw [roundWithAccuracy, isFinite_pack_dite, hfirst]
  simp only [hrounded]
  generalize roundingExponent m e = t at hleast
  generalize roundedAt m e a = r
  rw [shiftToTargetExponent, targetExponent_totalExponent, shiftToExponent]
  simp only [mantissa_shift, mantissa_ofMantissaAndAccuracy]
  by_cases hzero : r = 0
  · simp only [hzero, Nat.zero_div, true_or]
  · -- The second time the mantissa keeps its leading bit.
    have hk : (roundingExponent r t - t).toNat ≤ r.log2 := by
      rw [roundingExponent]
      omega
    have hpow : 2 ^ (roundingExponent r t - t).toNat ≤ r :=
      Nat.le_trans (Nat.pow_le_pow_right Nat.two_pos hk) (Nat.log2_self_le hzero)
    have hkept : ¬ r / 2 ^ (roundingExponent r t - t).toNat = 0 :=
      Nat.ne_of_gt (Nat.div_pos hpow (Nat.two_pow_pos _))
    simp only [hkept, hzero, false_or]
    rw [roundingExponent]
    omega

theorem roundedAt_le (h : e ≤ roundingExponent m e) : roundedAt m e a ≤ 2 ^ 53 := by
  have hlog : m.log2 ≤ 52 + (roundingExponent m e - e).toNat := by
    have hbits : (m.log2 : Int) + e - 52 ≤ roundingExponent m e := Int.le_max_left _ _
    omega
  have hle := roundedMantissa_le
    (ExtendedMantissa.ofMantissaAndAccuracy m a >>> (roundingExponent m e - e).toNat)
  rw [mantissa_shift, mantissa_ofMantissaAndAccuracy] at hle
  have hlt := div_two_pow_lt m _ hlog
  rw [roundedAt]
  omega

/-- Rounding to an exponent of at most 970 cannot overflow, even where it carries. -/
theorem isFinite_of_roundingExponent_le (h : e ≤ roundingExponent m e)
    (ht : roundingExponent m e ≤ 970) :
    (Float.Model.pack (roundWithAccuracy Format.binary64 s m e a)).isFinite = true := by
  rw [isFinite_pack_roundWithAccuracy s m e a h]
  by_cases hzero : roundedAt m e a = 0
  · exact Or.inl hzero
  · have hle := roundedAt_le m e a h
    have hlog : (roundedAt m e a).log2 < 54 := (Nat.log2_lt hzero).mpr (by omega)
    right
    omega

/-- A rounded mantissa does not carry if it lies more than half a unit below the power of two. -/
theorem roundedMantissa_lt_iff (k : Nat) (h : m.log2 = 52 + k) :
    (ExtendedMantissa.ofMantissaAndAccuracy m .exact >>> k).roundedMantissa < 2 ^ 53 ↔
      2 * m < (2 ^ 54 - 1) * 2 ^ k := by
  cases k with
  | zero =>
    have hm : m < 2 ^ (m.log2 + 1) := Nat.lt_log2_self
    have hr : (ExtendedMantissa.ofMantissaAndAccuracy m .exact >>> 0).roundedMantissa = m := rfl
    rw [h] at hm
    rw [hr]
    omega
  | succ k =>
    have hround := even_le_roundedMantissa_iff m .exact (2 ^ 52 - 1) k
    have hdiv : m / 2 ^ k < 2 ^ 54 - 1 ↔ m < (2 ^ 54 - 1) * 2 ^ k :=
      Nat.div_lt_iff_lt_mul (Nat.two_pow_pos k)
    rw [Nat.pow_succ]
    omega

theorem roundedAt_ne_zero (hm : m ≠ 0) (h : roundingExponent m e = m.log2 + e - 52) :
    roundedAt m e a ≠ 0 := by
  have hk : (roundingExponent m e - e).toNat ≤ m.log2 := by omega
  have hpow : 2 ^ (roundingExponent m e - e).toNat ≤ m :=
    Nat.le_trans (Nat.pow_le_pow_right Nat.two_pos hk) (Nat.log2_self_le hm)
  have hkept := Nat.div_pos hpow (Nat.two_pow_pos _)
  have hle := le_roundedMantissa
    (ExtendedMantissa.ofMantissaAndAccuracy m a >>> (roundingExponent m e - e).toNat)
  rw [mantissa_shift, mantissa_ofMantissaAndAccuracy] at hle
  rw [roundedAt]
  omega

/-- An exact magnitude is rounded to a finite double exactly if it is below the limit. -/
theorem isFinite_roundWithAccuracy_iff (h : e ≤ roundingExponent m e) :
    (Float.Model.pack (roundWithAccuracy Format.binary64 s m e .exact)).isFinite = true ↔
      (m : ℚ) * 2 ^ e < limit := by
  rcases lt_trichotomy (roundingExponent m e) 971 with ht | ht | ht
  · have hfinite := isFinite_of_roundingExponent_le s m e .exact h (by omega)
    have hsmall : (m : ℚ) * 2 ^ e < 2 ^ (1023 : ℤ) := by
      have hbits : (m.log2 : Int) + e - 52 ≤ roundingExponent m e := Int.le_max_left _ _
      exact mul_zpow_lt m e (by omega)
    exact iff_of_true hfinite (hsmall.trans two_zpow_lt_limit)
  · -- Here rounding decides: a carry out of the 53 bits overflows.
    have hlog : (m.log2 : Int) + e = 1023 := by
      rw [roundingExponent] at ht
      omega
    obtain ⟨k, rfl⟩ : ∃ k : Nat, e = 971 - k := ⟨(971 - e).toNat, by omega⟩
    have hk : (971 - (971 - (k : Int))).toNat = k := by omega
    have hcarry : roundedAt m (971 - k) .exact < 2 ^ 53 ↔ 2 * m < (2 ^ 54 - 1) * 2 ^ k := by
      rw [roundedAt, ht, hk]
      exact roundedMantissa_lt_iff m k (by omega)
    rw [mul_zpow_lt_limit_iff, ← hcarry, isFinite_pack_roundWithAccuracy s m _ _ h, ht]
    by_cases hzero : roundedAt m (971 - k) .exact = 0
    · simp [hzero]
    · have hbits := Nat.log2_lt (k := 53) hzero
      omega
  · have hexponent : roundingExponent m e = m.log2 + e - 52 := by
      rw [roundingExponent] at ht ⊢
      omega
    have hm : m ≠ 0 := by
      rintro rfl
      rw [Nat.log2_zero] at hexponent
      omega
    have hlarge : (2 : ℚ) ^ (1024 : ℤ) ≤ m * 2 ^ e := le_mul_zpow m e hm (by omega)
    refine iff_of_false ?_ (not_lt.mpr (limit_lt_two_zpow.le.trans hlarge))
    rw [isFinite_pack_roundWithAccuracy s m _ _ h]
    rintro (hzero | ⟨hle, _⟩)
    · exact roundedAt_ne_zero m e .exact hm hexponent hzero
    · omega

/-- Rounding gives a finite number below the limit, and only there. -/
theorem isFinite_round_iff (hm : m ≠ 0) :
    (Float.Model.pack (UnpackedFloat.round Format.binary64 s m e)).isFinite = true ↔
      (m : ℚ) * 2 ^ e < limit := by
  rw [UnpackedFloat.round, targetExponent_totalExponent]
  simp only [decreaseExponent]
  -- A short mantissa gets bits below until it is long enough to be rounded.
  generalize hk : (e - roundingExponent m e).toNat = k
  have hlong : e - k ≤ roundingExponent (m <<< k) (e - k) := by
    rw [roundingExponent] at hk ⊢
    rw [log2_shiftLeft m k hm]
    omega
  rw [isFinite_roundWithAccuracy_iff s _ _ hlong, shiftLeft_mul_zpow]

/-- The same of a signed number, which may be zero. -/
theorem isFinite_normalize_iff (n : Int) (zeroSign : Sign) :
    (Float.Model.pack
        (UnpackedFloat.normalize Format.binary64 n e zeroSign)).isFinite = true ↔
      |(n : ℚ)| * 2 ^ e < limit := by
  rw [UnpackedFloat.normalize]
  rcases lt_trichotomy n 0 with hn | rfl | hn
  · have habs : |(n : ℚ)| = ((-n).toNat : ℕ) := by
      have hcast : ((-n).toNat : Int) = -n := Int.toNat_of_nonneg (by omega)
      rw [abs_of_neg (by exact_mod_cast hn)]
      exact_mod_cast hcast.symm
    rw [compare_lt_iff_lt.mpr hn, habs]
    exact isFinite_round_iff .negative _ e (by omega)
  · have hzero : compare (0 : Int) 0 = .eq := by decide
    rw [hzero]
    simp [isFinite_pack_zero, limit_pos]
  · have habs : |(n : ℚ)| = (n.toNat : ℕ) := by
      have hcast : (n.toNat : Int) = n := Int.toNat_of_nonneg (by omega)
      rw [abs_of_pos (by exact_mod_cast hn)]
      exact_mod_cast hcast.symm
    rw [compare_gt_iff_gt.mpr hn, habs]
    exact isFinite_round_iff .positive _ e (by omega)

end Rounding

end CarbonLedger.Decimal
