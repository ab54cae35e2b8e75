import Mathlib
import Stylesheet.Proofs.Decimal

/-!
# Exact values of doubles

A finite double is a rational number: its significand times a power of two, with its sign.  The
decomposition of its bits has that value, and cutting the fraction off the decomposition is rounding
the value toward zero.
-/

namespace Stylesheet.Decimal

open Float.Model (Format UnpackedFloat)
open Float.Model.UnpackedFloat

/-- The exact value of an unpacked double. -/
def unpackedValue? : UnpackedFloat → Option ℚ
  | .zero _ => some 0
  | .finite sign mantissa exponent _ => some (sign.apply mantissa * 2 ^ exponent)
  | .infinity _ | .notANumber => none

/-- The exact value of a double; NaN and the infinities have none. -/
def exactValue? (x : Float) : Option ℚ :=
  unpackedValue? x.toModel.unpack

/-- The finite doubles have a value. -/
theorem isSome_exactValue? (x : Float) : (exactValue? x).isSome = x.isFinite := by
  show (unpackedValue? x.toModel.unpack).isSome = x.toModel.unpack.isFinite
  cases x.toModel.unpack <;> rfl

/-- The integer next to a number in the direction of zero. -/
def truncated (q : ℚ) : Int :=
  if 0 ≤ q then ⌊q⌋ else ⌈q⌉

theorem truncated_intCast (n : Int) : truncated n = n := by
  unfold truncated
  split
  · exact Int.floor_intCast n
  · exact Int.ceil_intCast n

theorem truncated_neg (q : ℚ) : truncated (-q) = -truncated q := by
  unfold truncated
  rcases lt_trichotomy q 0 with hneg | rfl | hpos
  · rw [if_pos (neg_nonneg.mpr hneg.le), if_neg (not_le.mpr hneg), Int.floor_neg]
  · simp
  · rw [if_neg (not_le.mpr (neg_neg_of_pos hpos)), if_pos hpos.le, Int.ceil_neg]

namespace Binary

/-- The value of a decomposition. -/
def value (b : Binary) : ℚ :=
  b.signed b.magnitude * 2 ^ b.exponent

theorem denominator_of_nonneg {b : Binary} (hwhole : 0 ≤ b.exponent) : b.denominator = 1 := by
  rw [denominator, Int.toNat_eq_zero.mpr (by omega)]

theorem numerator_of_nonpos {b : Binary} (hfraction : b.exponent ≤ 0) :
    b.numerator = b.magnitude := by
  rw [numerator, Int.toNat_eq_zero.mpr hfraction]
  exact mul_one _

theorem value_eq (b : Binary) :
    b.value = if b.negative then -((b.numerator : ℚ) / b.denominator)
      else (b.numerator : ℚ) / b.denominator := by
  have hpower : (2 : ℚ) ^ b.exponent = 2 ^ b.exponent.toNat / 2 ^ (-b.exponent).toNat := by
    rw [← zpow_natCast, ← zpow_natCast, ← zpow_sub₀ two_ne_zero]
    congr 1
    omega
  have hfraction : (b.magnitude : ℚ) * 2 ^ b.exponent = b.numerator / b.denominator := by
    rw [hpower, numerator, denominator, mul_div_assoc']
    push_cast [Nat.pow_eq]
    rfl
  unfold value signed
  split
  · push_cast
    rw [neg_mul, hfraction]
  · push_cast
    exact hfraction

theorem abs_value (b : Binary) : |b.value| = b.numerator / b.denominator := by
  have hnonneg : (0 : ℚ) ≤ b.numerator / b.denominator := by positivity
  rw [value_eq]
  split
  · rw [abs_neg, abs_of_nonneg hnonneg]
  · exact abs_of_nonneg hnonneg

/-- Cutting the fraction off a decomposition rounds its value toward zero. -/
theorem truncate_eq (b : Binary) : b.truncate = truncated b.value := by
  have htruncated : truncated (b.numerator / b.denominator)
      = (b.numerator / b.denominator : Nat) := by
    have hnonneg : (0 : ℚ) ≤ b.numerator / b.denominator := by positivity
    rw [truncated, if_pos hnonneg]
    exact Rat.floor_natCast_div_natCast _ _
  rw [value_eq, truncate, signed]
  split
  · rw [truncated_neg, htruncated]
  · rw [htruncated]

end Binary

/-- The significand field of a double. -/
theorem toNat_unpackMantissa (x : Float) :
    (@unpackMantissa .binary64 x.toBits.toBitVec).toNat = x.toBits.toNat % Nat.pow 2 52 := by
  rw [unpackMantissa, BitVec.toNat_cast, BitVec.extractLsb_toNat, Nat.shiftRight_zero]
  rfl

/-- The first bit of a double is its sign. -/
theorem apply_unpackSign (x : Float) (n : Nat) :
    (Sign.ofBitVec (@unpackSign .binary64 x.toBits.toBitVec)).apply n
      = if x.toBits.toNat / Nat.pow 2 63 == 1 then -(n : Int) else n := by
  have hsign : (@unpackSign .binary64 x.toBits.toBitVec).toNat = x.toBits.toNat / Nat.pow 2 63 := by
    show (BitVec.extractLsb 63 63 x.toBits.toBitVec).toNat = _
    rw [BitVec.extractLsb_toNat, Nat.shiftRight_eq_div_pow]
    have hbits : x.toBits.toNat < 2 ^ 64 := UInt64.toNat_lt _
    show x.toBits.toNat / 2 ^ 63 % 2 = x.toBits.toNat / 2 ^ 63
    omega
  rw [← hsign]
  generalize @unpackSign .binary64 x.toBits.toBitVec = bit
  rcases BitVec.eq_zero_or_eq_one bit with rfl | rfl <;> rfl

/-- The leading bit of a significand goes without saying. -/
theorem toNat_implicit_append (fraction : BitVec 52) :
    (1#1 ++ fraction).toNat = Nat.pow 2 52 + fraction.toNat := by
  rw [BitVec.toNat_append, ← Nat.shiftLeft_add_eq_or_of_lt fraction.isLt]
  rfl

/-- The decomposition of a double has its exact value. -/
theorem exactValue?_eq (x : Float) : exactValue? x = (Binary.ofFloat? x).map Binary.value := by
  have hfull : @unpackExponent .binary64 x.toBits.toBitVec = -1#11 ↔
      x.toBits.toNat / Nat.pow 2 52 % Nat.pow 2 11 = 2047 := by
    rw [← toNat_unpackExponent, ← BitVec.toNat_inj]
    rfl
  have hzero : @unpackExponent .binary64 x.toBits.toBitVec = 0#11 ↔
      x.toBits.toNat / Nat.pow 2 52 % Nat.pow 2 11 = 0 := by
    rw [← toNat_unpackExponent, ← BitVec.toNat_inj]
    rfl
  show unpackedValue? (UnpackedFloat.unpack .binary64 x.toBits.toBitVec) = _
  unfold UnpackedFloat.unpack Binary.ofFloat?
  dsimp only
  by_cases hexponent : x.toBits.toNat / Nat.pow 2 52 % Nat.pow 2 11 = 2047
  · -- NaN and the infinities
    rw [if_pos (hfull.mpr hexponent), if_pos (beq_iff_eq.mpr hexponent), apply_ite unpackedValue?]
    exact ite_self none
  · rw [if_neg (mt hfull.mp hexponent), if_neg (mt beq_iff_eq.mp hexponent)]
    by_cases hfield : x.toBits.toNat / Nat.pow 2 52 % Nat.pow 2 11 = 0
    · -- zeros and the doubles around them
      rw [if_pos (hzero.mpr hfield), if_pos (beq_iff_eq.mpr hfield)]
      by_cases hmantissa : @unpackMantissa .binary64 x.toBits.toBitVec = 0#52
      · have hfraction : x.toBits.toNat % Nat.pow 2 52 = 0 := by
          rw [← toNat_unpackMantissa, hmantissa]
          rfl
        rw [dif_pos hmantissa, hfraction]
        simp [unpackedValue?, Binary.value, Binary.signed]
      · rw [dif_neg hmantissa, unpackedValue?, apply_unpackSign, toNat_unpackMantissa,
          toNat_unpackExponent, hfield]
        rfl
    · rw [if_neg (mt hzero.mp hfield), if_neg (mt beq_iff_eq.mp hfield)]
      rw [unpackedValue?, apply_unpackSign, toNat_implicit_append, toNat_unpackMantissa,
        toNat_unpackExponent]
      rfl

/-- The integer part of a double is taken from its decomposition. -/
theorem map_truncate_ofFloat? (x : Float) :
    (Binary.ofFloat? x).map Binary.truncate = (exactValue? x).map truncated := by
  rw [exactValue?_eq, Option.map_map]
  congr 1
  funext b
  exact b.truncate_eq

/-- The doubles with a value are those that have a decomposition. -/
theorem isSome_exactValue?_eq (x : Float) : (exactValue? x).isSome = isFinite x := by
  rw [exactValue?_eq, Option.isSome_map, isFinite]

end Stylesheet.Decimal
