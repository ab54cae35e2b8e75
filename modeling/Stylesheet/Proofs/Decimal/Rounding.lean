import Stylesheet.Proofs.Decimal.Integer

/-!
# Rounding to doubles

A number is cut off behind the last place of a significand, and two bits keep which part of the last
place is left.  They are enough to find the nearest double: of all numbers with significands of 53
binary digits none is nearer, and if another one is as near, the last digit is even.
-/

namespace Stylesheet.Decimal

open Float.Model (Format UnpackedFloat totalExponent)
open Float.Model.UnpackedFloat

/-- `AsNear q even v w`: no other number `w` is nearer to `q` than `v`, and if it is as near, `v` is
even. -/
def AsNear (q : ℚ) (even : Prop) (v w : ℚ) : Prop :=
  v = w ∨ |v - q| < |w - q| ∨ |v - q| = |w - q| ∧ even

section AsNear

variable {q v w : ℚ} {even : Prop}

theorem AsNear.le (hnear : AsNear q even v w) : |v - q| ≤ |w - q| := by
  rcases hnear with rfl | hlt | ⟨heq, -⟩
  · exact le_rfl
  · exact hlt.le
  · exact heq.le

theorem AsNear.mul {n k unit : ℚ} (hnear : AsNear (q / unit) even n k) (hunit : 0 < unit) :
    AsNear q even (n * unit) (k * unit) := by
  have hscale (x : ℚ) : |x * unit - q| = |x - q / unit| * unit := by
    rw [← abs_of_pos hunit, ← abs_mul, abs_of_pos hunit, sub_mul, div_mul_cancel₀ q hunit.ne']
  rcases hnear with rfl | hlt | ⟨heq, heven⟩
  · exact .inl rfl
  · exact .inr (.inl (by rw [hscale, hscale]; exact mul_lt_mul_of_pos_right hlt hunit))
  · exact .inr (.inr ⟨by rw [hscale, hscale, heq], heven⟩)

theorem AsNear.neg (hnear : AsNear q even v w) : AsNear (-q) even (-v) (-w) := by
  have hneg (x : ℚ) : |-x - -q| = |x - q| := by rw [← neg_sub_neg, neg_neg, neg_neg, abs_sub_comm]
  rcases hnear with rfl | hlt | ⟨heq, heven⟩
  · exact .inl rfl
  · exact .inr (.inl (by rwa [hneg, hneg]))
  · exact .inr (.inr ⟨by rwa [hneg, hneg], heven⟩)

/-- What is as near as zero is as near as anything beyond zero. -/
theorem AsNear.of_nonpos (hzero : AsNear q even v 0) (hq : 0 ≤ q) (hw : w ≤ 0) :
    AsNear q even v w := by
  rcases hw.lt_or_eq with hneg | rfl
  · have hle := hzero.le
    rw [zero_sub, abs_neg, abs_of_nonneg hq] at hle
    refine .inr (.inl (lt_of_le_of_lt hle ?_))
    rw [abs_of_neg (by linarith)]
    linarith
  · exact hzero

end AsNear

/-! ## Rounding to integers -/

/-- `Represents em q`: a number is cut off behind its integer part, and the two bits say whether it
reaches the middle between two integers, and whether it is neither an integer nor such a middle. -/
structure Represents (em : ExtendedMantissa) (q : ℚ) : Prop where
  below : (em.mantissa : ℚ) ≤ q
  above : q < em.mantissa + 1
  half : em.roundBit = true ↔ (em.mantissa : ℚ) + 1 / 2 ≤ q
  between : em.stickyBit = true ↔ q ≠ em.mantissa ∧ q ≠ em.mantissa + 1 / 2

/-- The nearest integer to a number, the even one of two. -/
structure IsNearestEven (n : Nat) (q : ℚ) : Prop where
  near : |(n : ℚ) - q| ≤ 1 / 2
  even : |(n : ℚ) - q| = 1 / 2 → n % 2 = 0

variable {em : ExtendedMantissa} {q : ℚ}

/-- Shifting a place out keeps what is left behind the last place. -/
theorem Represents.shiftRightOne (hrep : Represents em q) : Represents em.shiftRightOne (q / 2) := by
  obtain ⟨hbelow, habove, hhalf, hbetween⟩ := hrep
  have hsticky : (em.roundBit || em.stickyBit) = true ↔ q ≠ em.mantissa := by
    rw [Bool.or_eq_true, hhalf, hbetween]
    constructor
    · rintro (hle | ⟨hne, -⟩)
      · intro heq
        linarith
      · exact hne
    · intro hne
      by_cases hmiddle : q = em.mantissa + 1 / 2
      · exact .inl hmiddle.ge
      · exact .inr ⟨hne, hmiddle⟩
  have hsplit : (em.mantissa : ℚ) = 2 * (em.mantissa / 2 : Nat) + (em.mantissa % 2 : Nat) := by
    exact_mod_cast (Nat.div_add_mod _ _).symm
  have hbit : (em.mantissa % 2 != 0) = true ↔ em.mantissa % 2 = 1 := by
    rw [bne_iff_ne]
    omega
  rcases Nat.mod_two_eq_zero_or_one em.mantissa with heven | hodd
  · rw [heven, Nat.cast_zero, add_zero] at hsplit
    refine ⟨?_, ?_, ?_, ?_⟩ <;> simp only [ExtendedMantissa.shiftRightOne]
    · linarith
    · linarith
    · rw [hbit, heven]
      refine iff_of_false zero_ne_one ?_
      linarith
    · rw [hsticky]
      constructor
      · intro hne
        refine ⟨fun heq => hne ?_, fun heq => ?_⟩ <;> linarith
      · rintro ⟨hne, -⟩ heq
        exact hne (by linarith)
  · rw [hodd, Nat.cast_one] at hsplit
    refine ⟨?_, ?_, ?_, ?_⟩ <;> simp only [ExtendedMantissa.shiftRightOne]
    · linarith
    · linarith
    · rw [hbit]
      refine iff_of_true hodd ?_
      linarith
    · rw [hsticky]
      constructor
      · intro hne
        refine ⟨fun heq => ?_, fun heq => hne ?_⟩ <;> linarith
      · rintro ⟨-, hne⟩ heq
        exact hne (by linarith)

theorem Represents.shiftRight (hrep : Represents em q) (shift : Nat) :
    Represents (em >>> shift) (q / 2 ^ shift) := by
  induction shift with
  | zero =>
      rw [pow_zero, div_one]
      exact hrep
  | succ shift ih =>
      rw [pow_succ, ← div_div]
      exact ih.shiftRightOne

/-- The bits are enough to round to the nearest integer. -/
theorem Represents.isNearestEven (hrep : Represents em q) :
    IsNearestEven em.roundedMantissa q := by
  obtain ⟨mantissa, roundBit, stickyBit⟩ := em
  obtain ⟨hbelow, habove, hhalf, hbetween⟩ := hrep
  dsimp only at hbelow habove hhalf hbetween
  cases roundBit with
  | false =>
      have hlow : q < mantissa + 1 / 2 := by simpa using hhalf
      have hdown : |(mantissa : ℚ) - q| < 1 / 2 := by
        rw [abs_sub_comm, abs_of_nonneg (by linarith)]
        linarith
      have hround : (⟨mantissa, false, stickyBit⟩ : ExtendedMantissa).roundedMantissa
          = mantissa := by cases stickyBit <;> rfl
      rw [hround]
      exact ⟨hdown.le, fun heq => absurd heq hdown.ne⟩
  | true =>
      have hhigh : (mantissa : ℚ) + 1 / 2 ≤ q := by simpa using hhalf
      cases stickyBit with
      | true =>
          have hmiddle : q ≠ mantissa + 1 / 2 := (hbetween.mp rfl).2
          have hup : |((mantissa + 1 : Nat) : ℚ) - q| < 1 / 2 := by
            push_cast
            rw [abs_of_nonneg (by linarith)]
            have hpast := lt_of_le_of_ne hhigh hmiddle.symm
            linarith
          exact ⟨hup.le, fun heq => absurd heq hup.ne⟩
      | false =>
          have hmiddle : q = mantissa + 1 / 2 := by
            by_contra hne
            have hsticky := hbetween.mpr ⟨fun heq => by linarith, hne⟩
            cases hsticky
          have hround : (⟨mantissa, true, false⟩ : ExtendedMantissa).roundedMantissa
              = mantissa + mantissa % 2 := rfl
          rw [hround]
          refine ⟨?_, fun _ => by omega⟩
          rcases Nat.mod_two_eq_zero_or_one mantissa with hmod | hmod <;>
            (rw [hmod, hmiddle, abs_le]; push_cast; constructor <;> linarith)

/-- No integer is nearer. -/
theorem IsNearestEven.asNear {n : Nat} (hnear : IsNearestEven n q) (k : Nat) :
    AsNear q (n % 2 = 0) n k := by
  by_cases hsame : n = k
  · exact .inl (congrArg _ hsame)
  have hapart : (1 : ℚ) ≤ |(n : ℚ) - k| := by
    have hint : (1 : Int) ≤ |(n : Int) - k| := Int.one_le_abs (by omega)
    exact_mod_cast hint
  have hsum : |(n : ℚ) - k| ≤ |(n : ℚ) - q| + |(k : ℚ) - q| := by
    rw [abs_sub_comm (k : ℚ)]
    exact abs_sub_le _ _ _
  have hbound := hnear.near
  rcases hbound.lt_or_eq with hlt | heq
  · exact .inr (.inl (by linarith))
  · rcases (show |(n : ℚ) - q| ≤ |(k : ℚ) - q| by linarith).lt_or_eq with hlt | htie
    · exact .inr (.inl hlt)
    · exact .inr (.inr ⟨htie, hnear.even heq⟩)

/-! ## Rounding to 53 binary digits -/

/-- `IsNearest q mantissa exponent`: no number with a significand of 53 binary digits, however
large, is nearer to `q`, and if one is as near, the significand is even. -/
def IsNearest (q : ℚ) (mantissa : Nat) (exponent : Int) : Prop :=
  ∀ (other : Nat) (power : Int), other < 2 ^ 53 → -1074 ≤ power →
    AsNear q (mantissa % 2 = 0) (mantissa * 2 ^ exponent) (other * 2 ^ power)

/-- The last place is the least one, or the significand goes up to its first digit. -/
structure IsCanonical (mantissa : Nat) (exponent : Int) : Prop where
  fits : mantissa < 2 ^ 53
  least : -1074 ≤ exponent
  full : exponent = -1074 ∨ 2 ^ 52 ≤ mantissa

/-- A number as an integer times a power of two that is no greater than its own. -/
theorem mul_two_zpow_of_le (n : Nat) {power exponent : Int} (hle : exponent ≤ power) :
    (n : ℚ) * 2 ^ power = (n * 2 ^ (power - exponent).toNat : Nat) * 2 ^ exponent := by
  have hpower : (((power - exponent).toNat : Nat) : Int) + exponent = power := by omega
  push_cast
  rw [mul_assoc, ← zpow_natCast, ← zpow_add₀ two_ne_zero, hpower]

/-- Rounding the last place to an integer gives the nearest number, provided that the first place
is far enough in front of the last. -/
theorem IsNearestEven.isNearest {n : Nat} {exponent : Int}
    (hnear : IsNearestEven n (q / 2 ^ exponent))
    (hwide : exponent = -1074 ∨ 2 ^ (exponent + 52) ≤ q) : IsNearest q n exponent := by
  intro other power hother hpower
  have hunit : (0 : ℚ) < 2 ^ exponent := zpow_pos two_pos exponent
  rcases le_or_gt exponent power with hle | hlt
  · rw [mul_two_zpow_of_le other hle]
    exact (hnear.asNear _).mul hunit
  · -- the other number is below the least one of this exponent, which is an integer in this place
    have hreach : (2 : ℚ) ^ (exponent + 52) ≤ q := hwide.resolve_left (by omega)
    have hbound : (((2 ^ 52 : Nat) : ℚ)) * 2 ^ exponent = 2 ^ (exponent + 52) := by
      rw [zpow_add₀ two_ne_zero, mul_comm]
      norm_num
    have hbelow : (other : ℚ) * 2 ^ power < 2 ^ (exponent + 52) :=
      calc (other : ℚ) * 2 ^ power < 2 ^ 53 * 2 ^ power :=
            mul_lt_mul_of_pos_right (by exact_mod_cast hother) (zpow_pos two_pos power)
        _ = 2 ^ (power + 53) := by rw [zpow_add₀ two_ne_zero, mul_comm]; norm_num
        _ ≤ 2 ^ (exponent + 52) := zpow_le_zpow_right₀ one_le_two (by omega)
    have hle := ((hnear.asNear (2 ^ 52)).mul hunit).le
    rw [hbound, abs_of_nonpos (sub_nonpos.mpr hreach)] at hle
    refine .inr (.inl (lt_of_le_of_lt hle ?_))
    rw [abs_of_neg (by linarith)]
    linarith

/-- The exponent of the last place that is kept of a number: the first 53 binary digits, but none
behind the least place of all. -/
def lastPlace (mantissa : Nat) (exponent : Int) : Int :=
  max (mantissa.log2 + exponent - 52) (-1074)

theorem targetExponent_eq (mantissa : Nat) (exponent : Int) :
    Format.binary64.targetExponent (totalExponent mantissa exponent)
      = lastPlace mantissa exponent := by
  show max ((mantissa.log2 : Int) + 1 + exponent - 53) (-1074) = max _ _
  omega

section lastPlace

variable {mantissa : Nat} {exponent : Int}

/-- A number with places enough is cut off within them. -/
theorem le_lastPlace (hplaces : 2 ^ 52 ≤ mantissa ∨ exponent ≤ -1074) :
    exponent ≤ lastPlace mantissa exponent := by
  unfold lastPlace
  rcases hplaces with hwide | hlow
  · have hlog : 52 ≤ mantissa.log2 := (Nat.le_log2 (by omega)).mpr hwide
    omega
  · omega

/-- The first place is no more than 53 places in front of the last. -/
theorem lt_two_zpow_lastPlace (habove : q < (mantissa + 1) * 2 ^ exponent) :
    q < 2 ^ (lastPlace mantissa exponent + 53) := by
  have hpower : (mantissa : ℚ) + 1 ≤ 2 ^ ((mantissa.log2 : Int) + 1) := by
    exact_mod_cast Nat.succ_le_of_lt (Nat.lt_log2_self (n := mantissa))
  calc q < (mantissa + 1) * 2 ^ exponent := habove
    _ ≤ 2 ^ ((mantissa.log2 : Int) + 1) * 2 ^ exponent :=
        mul_le_mul_of_nonneg_right hpower (zpow_pos two_pos exponent).le
    _ = 2 ^ ((mantissa.log2 : Int) + 1 + exponent) := (zpow_add₀ two_ne_zero _ _).symm
    _ ≤ 2 ^ (lastPlace mantissa exponent + 53) :=
        zpow_le_zpow_right₀ one_le_two (by unfold lastPlace; omega)

/-- And no less, unless the last place is the least. -/
theorem two_zpow_lastPlace_le (hplaces : 2 ^ 52 ≤ mantissa ∨ exponent ≤ -1074)
    (hbelow : mantissa * 2 ^ exponent ≤ q) :
    lastPlace mantissa exponent = -1074 ∨ 2 ^ (lastPlace mantissa exponent + 52) ≤ q := by
  rcases Nat.eq_zero_or_pos mantissa with rfl | hpos
  · have hlog : (0 : Nat).log2 = 0 := rfl
    exact .inl (by unfold lastPlace; omega)
  · refine (le_max_right _ _).eq_or_lt.imp Eq.symm fun hlarge => ?_
    have hplace : lastPlace mantissa exponent + 52 = mantissa.log2 + exponent := by
      unfold lastPlace at hlarge ⊢
      omega
    have hpower : (2 : ℚ) ^ (mantissa.log2 : Int) ≤ mantissa := by
      exact_mod_cast Nat.log2_self_le hpos.ne'
    calc (2 : ℚ) ^ (lastPlace mantissa exponent + 52)
        = 2 ^ (mantissa.log2 : Int) * 2 ^ exponent := by rw [hplace, zpow_add₀ two_ne_zero]
      _ ≤ mantissa * 2 ^ exponent :=
          mul_le_mul_of_nonneg_right hpower (zpow_pos two_pos exponent).le
      _ ≤ q := hbelow

/-- A significand that fits stays as it is. -/
theorem shiftToTargetExponent_of_fits (hfits : mantissa < 2 ^ 53) (hleast : -1074 ≤ exponent) :
    shiftToTargetExponent .binary64 mantissa exponent .exact
      = (⟨mantissa, false, false⟩, exponent) := by
  have hlog : mantissa.log2 ≤ 52 := by
    rcases Nat.eq_zero_or_pos mantissa with rfl | hpos
    · decide
    · exact log2_le hpos hfits
  have hnone : (lastPlace mantissa exponent - exponent).toNat = 0 := by
    unfold lastPlace
    omega
  simp only [shiftToTargetExponent, targetExponent_eq, shiftToExponent, hnone, Nat.cast_zero,
    add_zero]
  rfl

/-- A significand that is carried past its first place moves on by one. -/
theorem shiftToTargetExponent_of_carry (hleast : -1074 ≤ exponent) :
    shiftToTargetExponent .binary64 (2 ^ 53) exponent .exact
      = (⟨2 ^ 52, false, false⟩, exponent + 1) := by
  have hone : (lastPlace (2 ^ 53) exponent - exponent).toNat = 1 := by
    unfold lastPlace
    rw [Nat.log2_two_pow]
    omega
  simp only [shiftToTargetExponent, targetExponent_eq, shiftToExponent, hone]
  rfl

theorem mantissa_ofMantissaAndAccuracy (mantissa : Nat) (accuracy : Accuracy) :
    (ExtendedMantissa.ofMantissaAndAccuracy mantissa accuracy).mantissa = mantissa := by
  rcases accuracy with - | (- | - | -) <;> rfl

/-- The first step of rounding cuts a number off behind its last place. -/
theorem exists_shiftToTargetExponent_eq {accuracy : Accuracy}
    (hrep : Represents (.ofMantissaAndAccuracy mantissa accuracy) (q / 2 ^ exponent))
    (hle : exponent ≤ lastPlace mantissa exponent) :
    ∃ em, Represents em (q / 2 ^ lastPlace mantissa exponent) ∧
      shiftToTargetExponent .binary64 mantissa exponent accuracy
        = (em, lastPlace mantissa exponent) := by
  have hshift : exponent + ((lastPlace mantissa exponent - exponent).toNat : Int)
      = lastPlace mantissa exponent := by omega
  have hshifted := hrep.shiftRight (lastPlace mantissa exponent - exponent).toNat
  rw [div_div, ← zpow_natCast, ← zpow_add₀ two_ne_zero, hshift] at hshifted
  refine ⟨_, hshifted, ?_⟩
  simp only [shiftToTargetExponent, targetExponent_eq, shiftToExponent, hshift]

end lastPlace

/-- A double of a sign, a significand and an exponent. -/
def unpackedParts (sign : Sign) (mantissa : Nat) (exponent : Int) : UnpackedFloat :=
  if hzero : mantissa = 0 then .zero sign
  else .finite sign mantissa exponent (Nat.pos_of_ne_zero hzero)

theorem IsNearestEven.le_of_lt {n k : Nat} (hnear : IsNearestEven n q) (hlt : q < k) : n ≤ k := by
  have hbound := (abs_le.mp hnear.near).2
  have hless : (n : ℚ) < (k + 1 : Nat) := by
    push_cast
    linarith
  exact Nat.lt_succ_iff.mp (by exact_mod_cast hless)

theorem IsNearestEven.le_of_le {n k : Nat} (hnear : IsNearestEven n q) (hle : k ≤ q) : k ≤ n := by
  have hbound := (abs_le.mp hnear.near).1
  have hless : (k : ℚ) < (n + 1 : Nat) := by
    push_cast
    linarith
  exact Nat.lt_succ_iff.mp (by exact_mod_cast hless)

/-- A significand that is carried past its first place can be written one place further on. -/
theorem IsNearest.of_carry {place : Int} (hnearest : IsNearest q (2 ^ 53) place) :
    IsNearest q (2 ^ 52) (place + 1) := by
  have hcarried : ((2 ^ 52 : Nat) : ℚ) * 2 ^ (place + 1) = (2 ^ 53 : Nat) * 2 ^ place := by
    rw [zpow_add_one₀ two_ne_zero]
    push_cast
    ring
  intro other power hother hpower
  rw [hcarried]
  exact hnearest other power hother hpower

/-- Rounding gives the nearest number with a significand of 53 binary digits. -/
theorem exists_roundWithAccuracy_eq (sign : Sign) {mantissa : Nat} {exponent : Int}
    {accuracy : Accuracy}
    (hrep : Represents (.ofMantissaAndAccuracy mantissa accuracy) (q / 2 ^ exponent))
    (hplaces : 2 ^ 52 ≤ mantissa ∨ exponent ≤ -1074) :
    ∃ rounded place, IsCanonical rounded place ∧ IsNearest q rounded place ∧
      roundWithAccuracy .binary64 sign mantissa exponent accuracy
        = unpackedParts sign rounded place := by
  have hunit : (0 : ℚ) < 2 ^ exponent := zpow_pos two_pos exponent
  have hbelow : (mantissa : ℚ) * 2 ^ exponent ≤ q := by
    rw [← le_div_iff₀ hunit, ← mantissa_ofMantissaAndAccuracy mantissa accuracy]
    exact hrep.below
  have habove : q < ((mantissa : ℚ) + 1) * 2 ^ exponent := by
    rw [← div_lt_iff₀ hunit, ← mantissa_ofMantissaAndAccuracy mantissa accuracy]
    exact hrep.above
  obtain ⟨em, hem, hfirst⟩ := exists_shiftToTargetExponent_eq hrep (le_lastPlace hplaces)
  have hwide := two_zpow_lastPlace_le hplaces hbelow
  have hnarrow := lt_two_zpow_lastPlace habove
  have hleast : -1074 ≤ lastPlace mantissa exponent := le_max_right _ _
  generalize lastPlace mantissa exponent = place at hem hfirst hwide hnarrow hleast
  have hplace : (0 : ℚ) < 2 ^ place := zpow_pos two_pos place
  have hnear := hem.isNearestEven.isNearest hwide
  have hfits : em.roundedMantissa ≤ 2 ^ 53 := by
    apply hem.isNearestEven.le_of_lt
    rw [div_lt_iff₀ hplace]
    rw [zpow_add₀ two_ne_zero, mul_comm] at hnarrow
    exact_mod_cast hnarrow
  rcases hfits.lt_or_eq with hlt | hcarry
  · refine ⟨em.roundedMantissa, place, ⟨hlt, hleast, hwide.imp_right fun hreach => ?_⟩, hnear, ?_⟩
    · apply hem.isNearestEven.le_of_le
      rw [le_div_iff₀ hplace]
      rw [zpow_add₀ two_ne_zero, mul_comm] at hreach
      exact_mod_cast hreach
    · simp only [roundWithAccuracy, hfirst, shiftToTargetExponent_of_fits hlt hleast]
      rfl
  · rw [hcarry] at hnear
    refine ⟨2 ^ 52, place + 1, ⟨by norm_num, by omega, .inr le_rfl⟩, hnear.of_carry, ?_⟩
    simp only [roundWithAccuracy, hfirst, hcarry, shiftToTargetExponent_of_carry hleast]
    rfl

end Stylesheet.Decimal
