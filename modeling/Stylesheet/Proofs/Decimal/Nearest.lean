import Stylesheet.Proofs.Decimal.Packing

/-!
# Decimals as doubles

The double of a decimal is the decimal correctly rounded, however it is computed: as a word that is
multiplied or divided by a power of ten, as a quotient of long integers, or, far outside the range of
the doubles, not at all.
-/

namespace Stylesheet.Decimal

open Float.Model (Format UnpackedFloat)
open Float.Model.UnpackedFloat
open Text (digitsValue)

variable {q : ℚ}

/-- `IsRounded q u`: an unpacked double is the nearest number of 53 binary digits to `q`. -/
def IsRounded (q : ℚ) (u : UnpackedFloat) : Prop :=
  ∃ mantissa exponent, IsCanonical mantissa exponent ∧ IsNearest q mantissa exponent ∧
    u = unpackedParts .positive mantissa exponent

/-- `IsDoubleOf q x`: a double is the nearest number of 53 binary digits to `q`, or infinite when
that is too large. -/
def IsDoubleOf (q : ℚ) (x : Float) : Prop :=
  ∃ mantissa exponent, IsCanonical mantissa exponent ∧ IsNearest q mantissa exponent ∧
    x = double false mantissa exponent

theorem IsRounded.isDoubleOf {u : UnpackedFloat} (hu : IsRounded q u) :
    IsDoubleOf q ⟨Float.Model.pack u⟩ := by
  obtain ⟨mantissa, exponent, hcanonical, hnearest, rfl⟩ := hu
  exact ⟨mantissa, exponent, hcanonical, hnearest, rfl⟩

/-! ## Products and quotients -/

/-- What an accuracy says of the part of a number behind its point. -/
def IsPart : Accuracy → ℚ → Prop
  | .exact, part => part = 0
  | .inexact .lt, part => 0 < part ∧ part < 1 / 2
  | .inexact .eq, part => part = 1 / 2
  | .inexact .gt, part => 1 / 2 < part ∧ part < 1

theorem IsPart.represents {accuracy : Accuracy} {part : ℚ} (hpart : IsPart accuracy part) (n : Nat) :
    Represents (.ofMantissaAndAccuracy n accuracy) (n + part) := by
  rcases accuracy with - | (- | - | -)
  · obtain rfl : part = 0 := hpart
    rw [add_zero]
    show Represents ⟨n, false, false⟩ _
    exact ⟨le_rfl, lt_add_one _, iff_of_false Bool.false_ne_true (by linarith),
      iff_of_false Bool.false_ne_true fun hne => hne.1 rfl⟩
  · obtain ⟨hlow, hhigh⟩ : 0 < part ∧ part < 1 / 2 := hpart
    show Represents ⟨n, false, true⟩ _
    exact ⟨by linarith, by linarith, iff_of_false Bool.false_ne_true (by linarith),
      iff_of_true rfl ⟨fun heq => by linarith, fun heq => by linarith⟩⟩
  · obtain rfl : part = 1 / 2 := hpart
    show Represents ⟨n, true, false⟩ _
    exact ⟨by linarith, by linarith, iff_of_true rfl le_rfl,
      iff_of_false Bool.false_ne_true fun hne => hne.2 rfl⟩
  · obtain ⟨hlow, hhigh⟩ : 1 / 2 < part ∧ part < 1 := hpart
    show Represents ⟨n, true, true⟩ _
    exact ⟨by linarith, by linarith, iff_of_true rfl (by linarith),
      iff_of_true rfl ⟨fun heq => by linarith, fun heq => by linarith⟩⟩

theorem represents_exact (n : Nat) : Represents (.ofMantissaAndAccuracy n .exact) n := by
  have hpart : IsPart .exact 0 := rfl
  have hrep := hpart.represents n
  rwa [add_zero] at hrep

theorem isPart_accuracyOfFraction {rest den : Nat} (hrest : rest < den) :
    IsPart (accuracyOfFraction rest den) (rest / den) := by
  have hden : (0 : ℚ) < den := Nat.cast_pos.mpr (by omega)
  unfold accuracyOfFraction
  split
  · next hzero =>
      subst hzero
      simp [IsPart]
  · next hsome =>
      have hpos : (0 : ℚ) < rest / den :=
        div_pos (Nat.cast_pos.mpr (Nat.pos_of_ne_zero hsome)) hden
      cases hcompare : compare (2 * rest) den with
      | lt =>
          have hlt : (2 : ℚ) * rest < den := by exact_mod_cast compare_lt_iff_lt.mp hcompare
          exact ⟨hpos, by rw [div_lt_iff₀ hden]; linarith⟩
      | eq =>
          have heq : (2 : ℚ) * rest = den := by exact_mod_cast compare_eq_iff_eq.mp hcompare
          show (rest : ℚ) / den = 1 / 2
          rw [div_eq_iff hden.ne']
          linarith
      | gt =>
          have hgt : (den : ℚ) < 2 * rest := by exact_mod_cast compare_gt_iff_gt.mp hcompare
          refine ⟨by rw [lt_div_iff₀ hden]; linarith, ?_⟩
          rw [div_lt_one hden]
          exact_mod_cast hrest

/-- The remainder of a division says how the quotient goes on. -/
theorem represents_fraction (num : Nat) {den : Nat} (hden : 0 < den) :
    Represents (.ofMantissaAndAccuracy (num / den) (accuracyOfFraction (num % den) den))
      (num / den : ℚ) := by
  have hpos : (den : ℚ) ≠ 0 := (Nat.cast_pos.mpr hden).ne'
  have hsplit : (num / den : ℚ) = (num / den : Nat) + (num % den : Nat) / (den : ℚ) := by
    rw [eq_comm, ← mul_left_inj' hpos, add_mul, div_mul_cancel₀ _ hpos, div_mul_cancel₀ _ hpos,
      mul_comm]
    exact_mod_cast Nat.div_add_mod num den
  rw [hsplit]
  exact (isPart_accuracyOfFraction (Nat.mod_lt num hden)).represents _

/-- A product of two significands is rounded to the nearest number. -/
theorem isRounded_mul {m₁ m₂ : Nat} (e₁ e₂ : Int) (h₁ : 0 < m₁) (h₂ : 0 < m₂)
    (hwide : 2 ^ 52 ≤ m₁ * m₂) :
    IsRounded (m₁ * 2 ^ e₁ * (m₂ * 2 ^ e₂)) (UnpackedFloat.mul .binary64
      (.finite .positive m₁ e₁ h₁) (.finite .positive m₂ e₂ h₂)) := by
  apply exists_roundWithAccuracy_eq .positive _ (.inl hwide)
  have hscaled : (m₁ : ℚ) * 2 ^ e₁ * (m₂ * 2 ^ e₂) / 2 ^ (e₁ + e₂) = (m₁ * m₂ : Nat) := by
    rw [div_eq_iff (zpow_ne_zero _ two_ne_zero), zpow_add₀ two_ne_zero]
    push_cast
    ring
  rw [hscaled]
  exact represents_exact _

/-- The quotient of two significands, the first moved up far enough, has places enough. -/
theorem le_div_of_shift {m₁ m₂ shift : Nat} (h₁ : 0 < m₁) (h₂ : 0 < m₂)
    (hshift : m₂.log2 + 53 ≤ m₁.log2 + shift) : 2 ^ 52 ≤ (m₁ * 2 ^ shift) / m₂ := by
  rw [Nat.le_div_iff_mul_le h₂]
  calc 2 ^ 52 * m₂ ≤ 2 ^ 52 * 2 ^ (m₂.log2 + 1) := Nat.mul_le_mul_left _ Nat.lt_log2_self.le
    _ = 2 ^ (m₂.log2 + 53) := by rw [← pow_add]; congr 1; omega
    _ ≤ 2 ^ (m₁.log2 + shift) := Nat.pow_le_pow_right two_pos hshift
    _ = 2 ^ m₁.log2 * 2 ^ shift := pow_add _ _ _
    _ ≤ m₁ * 2 ^ shift := Nat.mul_le_mul_right _ (Nat.log2_self_le h₁.ne')

/-- A division goes on until there are places enough, or down to the least place. -/
theorem exists_div_eq (m₁ m₂ : Nat) (e₁ e₂ : Int) (h₁ : 0 < m₁) (h₂ : 0 < m₂) :
    ∃ (place : Int) (shift : Nat), place + shift = e₁ - e₂ ∧
      (place ≤ -1074 ∨ m₂.log2 + 53 ≤ m₁.log2 + shift) ∧
      UnpackedFloat.div .binary64 (.finite .positive m₁ e₁ h₁) (.finite .positive m₂ e₂ h₂)
        = roundWithAccuracy .binary64 .positive (m₁ * 2 ^ shift / m₂) place
            (accuracyOfFraction (m₁ * 2 ^ shift % m₂) m₂) := by
  have htarget : Format.binary64.targetExponent
      (Float.Model.totalExponent m₁ e₁ - Float.Model.totalExponent m₂ e₂)
        = max (m₁.log2 + e₁ - (m₂.log2 + e₂) - 53) (-1074) := by
    show max ((m₁.log2 : Int) + 1 + e₁ - (m₂.log2 + 1 + e₂) - 53) (-1074) = _
    omega
  generalize hplace : max ((m₁.log2 : Int) + e₁ - (m₂.log2 + e₂) - 53) (-1074) = wanted at htarget
  refine ⟨min (e₁ - e₂) wanted, (e₁ - e₂ - min (e₁ - e₂) wanted).toNat, by omega, by omega, ?_⟩
  simp only [UnpackedFloat.div, divCore, htarget, Nat.shiftLeft_eq]
  rfl

/-- A quotient of two significands is rounded to the nearest number. -/
theorem isRounded_div {m₁ m₂ : Nat} (e₁ e₂ : Int) (h₁ : 0 < m₁) (h₂ : 0 < m₂) :
    IsRounded (m₁ * 2 ^ e₁ / (m₂ * 2 ^ e₂)) (UnpackedFloat.div .binary64
      (.finite .positive m₁ e₁ h₁) (.finite .positive m₂ e₂ h₂)) := by
  obtain ⟨place, shift, hshift, hplace, hdiv⟩ := exists_div_eq m₁ m₂ e₁ e₂ h₁ h₂
  have hplaces : 2 ^ 52 ≤ m₁ * 2 ^ shift / m₂ ∨ place ≤ -1074 := by
    rcases hplace with hlow | hwide
    · exact .inr hlow
    · exact .inl (le_div_of_shift h₁ h₂ hwide)
  have hscaled : (m₁ : ℚ) * 2 ^ e₁ / (m₂ * 2 ^ e₂) / 2 ^ place = (m₁ * 2 ^ shift : Nat) / m₂ := by
    have hexponent : e₁ = place + shift + e₂ := by omega
    have hpos : (m₂ : ℚ) ≠ 0 := (Nat.cast_pos.mpr h₂).ne'
    have htwo : (2 : ℚ) ≠ 0 := two_ne_zero
    rw [hexponent, zpow_add₀ htwo, zpow_add₀ htwo, zpow_natCast]
    push_cast
    field_simp
  rw [hdiv]
  apply exists_roundWithAccuracy_eq .positive _ hplaces
  rw [hscaled]
  exact represents_fraction _ h₂

theorem isDoubleOf_mul {x y : Float} {m₁ m₂ : Nat} {e₁ e₂ : Int} {h₁ : 0 < m₁} {h₂ : 0 < m₂}
    (hx : x.toModel.unpack = .finite .positive m₁ e₁ h₁)
    (hy : y.toModel.unpack = .finite .positive m₂ e₂ h₂) (hwide : 2 ^ 52 ≤ m₁ * m₂) :
    IsDoubleOf (m₁ * 2 ^ e₁ * (m₂ * 2 ^ e₂)) (x * y) := by
  show IsDoubleOf _ ⟨.pack (.mul .binary64 x.toModel.unpack y.toModel.unpack)⟩
  rw [hx, hy]
  exact (isRounded_mul _ _ h₁ h₂ hwide).isDoubleOf

theorem isDoubleOf_div {x y : Float} {m₁ m₂ : Nat} {e₁ e₂ : Int} {h₁ : 0 < m₁} {h₂ : 0 < m₂}
    (hx : x.toModel.unpack = .finite .positive m₁ e₁ h₁)
    (hy : y.toModel.unpack = .finite .positive m₂ e₂ h₂) :
    IsDoubleOf (m₁ * 2 ^ e₁ / (m₂ * 2 ^ e₂)) (x / y) := by
  show IsDoubleOf _ ⟨.pack (.div .binary64 x.toModel.unpack y.toModel.unpack)⟩
  rw [hx, hy]
  exact (isRounded_div _ _ h₁ h₂).isDoubleOf

/-! ## Short decimals -/

/-- Whether a double is a power of ten, with a significand of full width. -/
def isPowerOfTen (power : Nat) (x : Float) : Bool :=
  match x.toModel.unpack with
  | .finite .positive mantissa exponent _ =>
      2 ^ 52 ≤ mantissa && mantissa * 2 ^ exponent.toNat == 10 ^ power * 2 ^ (-exponent).toNat
  | _ => false

theorem isPowerOfTen_factor :
    ∀ power : Fin 23, isPowerOfTen power Float.exactlyRepresentablePowersOfTen[power] = true := by
  decide +kernel

/-- The factors that short decimals are scaled by are powers of ten. -/
theorem exists_unpack_powerOfTen {power : Nat} {x : Float} (hx : isPowerOfTen power x = true) :
    ∃ (mantissa : Nat) (exponent : Int) (hpos : 0 < mantissa), 2 ^ 52 ≤ mantissa ∧
      (mantissa : ℚ) * 2 ^ exponent = 10 ^ power ∧
      x.toModel.unpack = .finite .positive mantissa exponent hpos := by
  unfold isPowerOfTen at hx
  split at hx
  · next mantissa exponent hpos hunpack =>
      rw [Bool.and_eq_true, decide_eq_true_eq, beq_iff_eq] at hx
      obtain ⟨hwide, hpower⟩ := hx
      refine ⟨mantissa, exponent, hpos, hwide, ?_, hunpack⟩
      have hexponent : exponent = exponent.toNat - (-exponent).toNat := by omega
      have hpower' : (mantissa : ℚ) * 2 ^ exponent.toNat = 10 ^ power * 2 ^ (-exponent).toNat := by
        exact_mod_cast hpower
      rw [hexponent, zpow_sub₀ two_ne_zero, zpow_natCast, zpow_natCast, ← mul_div_assoc, hpower',
        mul_div_cancel_right₀ _ (pow_ne_zero _ two_ne_zero)]
  · cases hx

/-- A short decimal is computed from two doubles. -/
theorem isDoubleOf_short {n power : Nat} (hpos : 0 < n) (hfits : n < 2 ^ 53) (hpower : power < 23) :
    IsDoubleOf (n * 10 ^ power)
        (n.toUInt64.toFloat * Float.exactlyRepresentablePowersOfTen[power]) ∧
      IsDoubleOf (n / 10 ^ power)
        (n.toUInt64.toFloat / Float.exactlyRepresentablePowersOfTen[power]) := by
  have hnormal := isNormal_of_lt hpos hfits
  have hvalue := value_of_log2_le (log2_le hpos hfits)
  obtain ⟨mantissa, exponent, hmantissa, hwide, hten, hunpack⟩ :=
    exists_unpack_powerOfTen (isPowerOfTen_factor ⟨power, hpower⟩)
  have hplaces : 2 ^ 52 ≤ n * 2 ^ (52 - n.log2) * mantissa :=
    hwide.trans (Nat.le_mul_of_pos_left _ hnormal.pos)
  rw [← hten, ← hvalue]
  exact ⟨isDoubleOf_mul (unpack_toFloat hpos hfits) hunpack hplaces,
    isDoubleOf_div (unpack_toFloat hpos hfits) hunpack⟩

/-! ## All decimals -/

variable {n : Nat} {power : Int}

/-- A decimal is a product or a quotient of two integers. -/
theorem mul_ten_zpow_of_nonneg (n : Nat) (hpower : 0 ≤ power) :
    (n : ℚ) * 10 ^ power = n * 10 ^ power.natAbs := by
  rw [← zpow_natCast, Int.natAbs_of_nonneg hpower]

theorem mul_ten_zpow_of_neg (n : Nat) (hpower : power < 0) :
    (n : ℚ) * 10 ^ power = n / 10 ^ power.natAbs := by
  have hneg : power = -(power.natAbs : Int) := by omega
  rw [div_eq_mul_inv, ← zpow_natCast, ← zpow_neg, ← hneg]

/-- A long decimal is computed from integers. -/
theorem isRounded_ofScientific (hpos : 0 < n) (hhigh : power ≤ 2 ^ 11)
    (hlow : -(2 ^ 11 + n.log2 : Int) ≤ power) :
    IsRounded (n * 10 ^ power) (UnpackedFloat.ofScientific .binary64 n power) := by
  unfold UnpackedFloat.ofScientific
  rw [dif_neg hpos.ne', if_neg (not_lt.mpr hhigh), if_neg (not_lt.mpr hlow)]
  split
  · next hwhole =>
      have hten : 0 < 10 ^ power.toNat := Nat.pow_pos (by norm_num)
      have hshift : n <<< 53 = n * 2 ^ 53 := Nat.shiftLeft_eq _ _
      have hmoved : 0 < n <<< 53 := by omega
      have hwide : 2 ^ 52 ≤ n <<< 53 * 10 ^ power.toNat :=
        le_trans (by omega) (Nat.le_mul_of_pos_right _ hten)
      have hvalue : ((n <<< 53 : Nat) : ℚ) * 2 ^ (-53 : Int) * ((10 ^ power.toNat : Nat) * 2 ^ (0 : Int))
          = n * 10 ^ power := by
        have hdigits : power.toNat = power.natAbs := by omega
        rw [mul_ten_zpow_of_nonneg n hwhole, hshift, hdigits, zpow_zero, mul_one]
        have hback : (2 : ℚ) ^ 53 * 2 ^ (-53 : Int) = 1 := by norm_num
        rw [Nat.cast_mul, Nat.cast_pow, Nat.cast_pow, Nat.cast_ofNat, mul_assoc (n : ℚ), hback,
          mul_one, Nat.cast_ofNat]
      rw [← hvalue]
      exact isRounded_mul _ _ hmoved hten hwide
  · next hfraction =>
      have hten : 0 < 10 ^ (-power).toNat := Nat.pow_pos (by norm_num)
      have hvalue : (n : ℚ) * 2 ^ (0 : Int) / ((10 ^ (-power).toNat : Nat) * 2 ^ (0 : Int))
          = n * 10 ^ power := by
        have hdigits : (-power).toNat = power.natAbs := by omega
        rw [mul_ten_zpow_of_neg n (not_le.mp hfraction), hdigits, zpow_zero, mul_one, mul_one]
        push_cast
        rfl
      rw [← hvalue]
      exact isRounded_div _ _ hpos hten

/-- A decimal within reach of the doubles is correctly rounded. -/
theorem isDoubleOf_ofScientific (hpos : 0 < n) (hhigh : power ≤ 2 ^ 11)
    (hlow : -(2 ^ 11 + n.log2 : Int) ≤ power) :
    IsDoubleOf (n * 10 ^ power) (Float.ofScientific n (power < 0) power.natAbs) := by
  unfold Float.ofScientific
  split
  · next hshort =>
      have hfew : power.natAbs < 23 := by omega
      obtain ⟨hproduct, hquotient⟩ := isDoubleOf_short hpos hshort.1 hfew
      by_cases hneg : power < 0
      · rw [mul_ten_zpow_of_neg n hneg]
        simp only [hneg, decide_true, if_true]
        exact hquotient
      · rw [mul_ten_zpow_of_nonneg n (not_lt.mp hneg)]
        simp only [hneg, decide_false, Bool.false_eq_true, if_false]
        exact hproduct
  · have hpower : (if decide (power < 0) = true then Int.negOfNat power.natAbs
        else Int.ofNat power.natAbs) = power := by
      by_cases hneg : power < 0
      · rw [if_pos (decide_eq_true hneg), Int.negOfNat_eq]
        show -(power.natAbs : Int) = power
        omega
      · rw [if_neg (by simpa using hneg)]
        show (power.natAbs : Int) = power
        omega
    simp only [hpower]
    exact (isRounded_ofScientific hpos hhigh hlow).isDoubleOf

/-! ## Numbers out of reach -/

theorem exists_isNearest (hq : 0 < q) :
    ∃ mantissa exponent, IsCanonical mantissa exponent ∧ IsNearest q mantissa exponent := by
  have hnum : 0 < q.num.natAbs := Int.natAbs_pos.mpr (Rat.num_ne_zero.mpr hq.ne')
  have hfraction : (q.num.natAbs : ℚ) * 2 ^ (0 : Int) / (q.den * 2 ^ (0 : Int)) = q := by
    have habs : ((q.num.natAbs : Int) : ℚ) = q.num := by
      rw [Int.natAbs_of_nonneg (Rat.num_pos.mpr hq).le]
    rw [zpow_zero, mul_one, mul_one, ← Int.cast_natCast q.num.natAbs, habs, Rat.num_div_den]
  have hrounded := isRounded_div 0 0 hnum q.den_pos
  rw [hfraction] at hrounded
  obtain ⟨mantissa, exponent, hcanonical, hnearest, -⟩ := hrounded
  exact ⟨mantissa, exponent, hcanonical, hnearest⟩

/-- Numbers below half the least double are nearest to zero. -/
theorem isDoubleOf_zero (hq : 0 ≤ q) (hsmall : q < 2 ^ (-1075 : Int)) : IsDoubleOf q 0.0 := by
  have hleast : (0 : ℚ) < 2 ^ (-1074 : Int) := zpow_pos two_pos _
  have hhalf : (2 : ℚ) ^ (-1075 : Int) = 1 / 2 * 2 ^ (-1074 : Int) := by
    have hpower := zpow_add_one₀ (two_ne_zero (α := ℚ)) (-1075)
    norm_num only at hpower ⊢
    linarith
  have hbelow : q / 2 ^ (-1074 : Int) < 1 / 2 := by rwa [div_lt_iff₀ hleast, ← hhalf]
  have heven : IsNearestEven 0 (q / 2 ^ (-1074 : Int)) := by
    refine ⟨?_, fun _ => rfl⟩
    rw [Nat.cast_zero, zero_sub, abs_neg, abs_of_nonneg (div_nonneg hq hleast.le)]
    exact hbelow.le
  exact ⟨0, -1074, ⟨by norm_num, le_rfl, .inl rfl⟩, heven.isNearest (.inl rfl), rfl⟩

/-- Numbers at the bound of overflow or beyond it have an infinite double. -/
theorem isDoubleOf_infinity (hlarge : overflowBound ≤ q) : IsDoubleOf q (1.0 / 0.0) := by
  have hbound : 0 < overflowBound := by
    unfold overflowBound
    positivity
  obtain ⟨mantissa, exponent, hcanonical, hnearest⟩ := exists_isNearest (hbound.trans_le hlarge)
  refine ⟨mantissa, exponent, hcanonical, hnearest, ?_⟩
  have hexponent : 971 < exponent := by
    by_contra hsmall
    have hbelow := hnearest.lt_overflowBound hcanonical.fits (not_lt.mp hsmall)
    exact absurd hlarge (not_le.mpr hbelow)
  show (1.0 / 0.0 : Float) = ⟨Float.Model.pack (unpackedParts .positive mantissa exponent)⟩
  rw [pack_of_large hcanonical hexponent]
  rfl

/-- A decimal is below the power of ten of its first place. -/
theorem lt_ten_zpow (n : Nat) (power : Int) :
    (n : ℚ) * 10 ^ power < 10 ^ ((Nat.toDigits 10 n).length + power) := by
  have hlength : 0 < (Nat.toDigits 10 n).length := Nat.length_toDigits_pos
  have hdigits : n < 10 ^ (Nat.toDigits 10 n).length :=
    (Nat.length_toDigits_le_iff (by norm_num) hlength).mp le_rfl
  rw [zpow_add₀ (by norm_num), zpow_natCast]
  exact mul_lt_mul_of_pos_right (by exact_mod_cast hdigits) (zpow_pos (by norm_num) _)

theorem ten_zpow_le (hpos : 0 < n) (power : Int) :
    (10 : ℚ) ^ ((Nat.toDigits 10 n).length + power - 1) ≤ n * 10 ^ power := by
  obtain ⟨digits, hdigits⟩ : ∃ digits, (Nat.toDigits 10 n).length = digits + 1 :=
    Nat.exists_eq_add_one.mpr Nat.length_toDigits_pos
  have hfirst : 10 ^ digits ≤ n := by
    rcases Nat.eq_zero_or_pos digits with rfl | hsome
    · exact hpos
    · refine not_lt.mp fun hless => ?_
      have hshort := (Nat.length_toDigits_le_iff (by norm_num) hsome).mpr hless
      omega
  have hplace : ((Nat.toDigits 10 n).length + power - 1 : Int) = digits + power := by omega
  rw [hplace, zpow_add₀ (by norm_num), zpow_natCast]
  exact mul_le_mul_of_nonneg_right (by exact_mod_cast hfirst) (zpow_pos (by norm_num) _).le

theorem length_toDigits_le_log2 (n : Nat) : (Nat.toDigits 10 n).length ≤ n.log2 + 1 := by
  rw [Nat.length_toDigits_le_iff (by norm_num) (Nat.succ_pos _)]
  calc n < 2 ^ (n.log2 + 1) := Nat.lt_log2_self
    _ ≤ 10 ^ (n.log2 + 1) := Nat.pow_le_pow_left (by norm_num) _

/-- The range of the doubles lies between these powers of ten. -/
theorem ten_zpow_le_two_zpow : (10 : ℚ) ^ (-331 : Int) ≤ 2 ^ (-1075 : Int) := by
  have hpowers : 2 ^ 1075 ≤ 10 ^ 331 := by decide +kernel
  rw [zpow_neg, zpow_neg]
  refine inv_anti₀ (zpow_pos two_pos _) ?_
  exact_mod_cast hpowers

theorem overflowBound_le_ten_zpow : overflowBound ≤ 10 ^ (310 : Int) := by
  have hpowers : 2 ^ 1024 ≤ 10 ^ 310 := by decide +kernel
  calc overflowBound ≤ 2 ^ 54 * 2 ^ 970 :=
        mul_le_mul_of_nonneg_right (by norm_num) (pow_pos two_pos 970).le
    _ = 2 ^ 1024 := (pow_add 2 54 970).symm
    _ ≤ 10 ^ (310 : Int) := by exact_mod_cast hpowers

/-- The double of a decimal is the decimal correctly rounded. -/
theorem isDoubleOf_nearest (n : Nat) (power : Int) : IsDoubleOf (n * 10 ^ power) (nearest n power) := by
  have hten : (0 : ℚ) < 10 ^ power := zpow_pos (by norm_num) _
  unfold nearest
  dsimp only
  split
  · next hsmall =>
      apply isDoubleOf_zero (mul_nonneg n.cast_nonneg hten.le)
      rcases Nat.eq_zero_or_pos n with rfl | hpos
      · rw [Nat.cast_zero, zero_mul]
        exact zpow_pos two_pos _
      have hplace : (Nat.toDigits 10 n).length + power ≤ -331 := by
        rcases hsmall with hzero | hlow
        · exact absurd (beq_iff_eq.mp hzero) hpos.ne'
        · omega
      calc (n : ℚ) * 10 ^ power < 10 ^ ((Nat.toDigits 10 n).length + power) := lt_ten_zpow n power
        _ ≤ 10 ^ (-331 : Int) := zpow_le_zpow_right₀ (by norm_num) hplace
        _ ≤ 2 ^ (-1075 : Int) := ten_zpow_le_two_zpow
  · next hsome =>
    rw [not_or, beq_iff_eq, not_lt] at hsome
    have hpos : 0 < n := Nat.pos_of_ne_zero hsome.1
    split
    · next hhigh =>
        apply isDoubleOf_infinity
        calc overflowBound ≤ 10 ^ (310 : Int) := overflowBound_le_ten_zpow
          _ ≤ 10 ^ ((Nat.toDigits 10 n).length + power - 1) :=
              zpow_le_zpow_right₀ (by norm_num) (by omega)
          _ ≤ n * 10 ^ power := ten_zpow_le hpos power
    · have hdigits := length_toDigits_le_log2 n
      have hlength : 0 < (Nat.toDigits 10 n).length := Nat.length_toDigits_pos
      exact isDoubleOf_ofScientific hpos (by omega) (by omega)

/-! ## Numerals -/

/-- The number that a numeral stands for, without its sign. -/
def Numeral.magnitude (numeral : Numeral) : ℚ :=
  (digitsValue numeral.whole + digitsValue numeral.fraction / 10 ^ numeral.fraction.length)
    * 10 ^ numeral.exponent

theorem digitsValue_append (digits more : List Char) :
    digitsValue (digits ++ more) = digitsValue digits * 10 ^ more.length + digitsValue more := by
  unfold digitsValue
  rw [List.foldl_append]
  generalize List.foldl _ 0 digits = value
  induction more using List.reverseRecOn with
  | nil => simp
  | append_singleton more c ih =>
      rw [List.foldl_append, List.foldl_append, ih, List.length_append, List.length_singleton,
        List.foldl_cons, List.foldl_cons, List.foldl_nil, List.foldl_nil, pow_succ]
      ring

/-- The digits of a numeral are read as one integer, and the point moves into the exponent. -/
theorem Numeral.magnitude_eq (numeral : Numeral) :
    numeral.magnitude = digitsValue (numeral.whole ++ numeral.fraction)
      * 10 ^ (numeral.exponent - numeral.fraction.length) := by
  have hten : (10 : ℚ) ≠ 0 := by norm_num
  have hpower : (10 : ℚ) ^ numeral.fraction.length ≠ 0 := pow_ne_zero _ hten
  rw [Numeral.magnitude, digitsValue_append, zpow_sub₀ hten, zpow_natCast, Nat.cast_add,
    Nat.cast_mul, Nat.cast_pow, Nat.cast_ofNat]
  field_simp

theorem Numeral.magnitude_nonneg (numeral : Numeral) : 0 ≤ numeral.magnitude := by
  unfold Numeral.magnitude
  positivity

/-- The double of a numeral is the number it stands for, correctly rounded. -/
theorem Numeral.rounds_toFloat (numeral : Numeral) :
    Rounds numeral.negative numeral.magnitude numeral.toFloat := by
  obtain ⟨mantissa, exponent, hcanonical, hnearest, hdouble⟩ :=
    isDoubleOf_nearest (digitsValue (numeral.whole ++ numeral.fraction))
      (numeral.exponent - numeral.fraction.length)
  rw [← numeral.magnitude_eq] at hnearest
  rw [Numeral.toFloat, hdouble, withSign_double hcanonical]
  exact hnearest.rounds hcanonical numeral.magnitude_nonneg numeral.negative

end Stylesheet.Decimal
