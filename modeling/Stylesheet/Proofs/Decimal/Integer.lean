import Stylesheet.Proofs.Decimal.Exact

/-!
# Integers among the doubles

An integer is a double when its digits in base two, without the zeros at their end, fit the
significand.  The double nearest to such an integer is the integer itself: nothing is rounded off on
the way, so nothing is lost.
-/

namespace Stylesheet.Decimal

open Float.Model (Format UnpackedFloat)
open Float.Model.UnpackedFloat

/-- An integer that is the exact value of some double. -/
def IsDouble (n : Int) : Prop :=
  ∃ x : Float, exactValue? x = some (n : ℚ)

/-- A significand of full width, with an exponent in range. -/
structure IsNormal (mantissa : Nat) (exponent : Int) : Prop where
  wide : 2 ^ 52 ≤ mantissa
  fits : mantissa < 2 ^ 53
  least : -1074 ≤ exponent
  greatest : exponent ≤ 971

variable {mantissa : Nat} {exponent : Int}

theorem IsNormal.pos (hnormal : IsNormal mantissa exponent) : 0 < mantissa :=
  lt_of_lt_of_le (by norm_num) hnormal.wide

theorem log2_le {n : Nat} (hpos : 0 < n) (hfits : n < 2 ^ 53) : n.log2 ≤ 52 :=
  Nat.lt_succ_iff.mp ((Nat.log2_lt hpos.ne').mpr hfits)

/-- A number of at most 53 binary digits has a full significand when it is moved up to its front. -/
theorem isNormal_of_lt {n : Nat} (hpos : 0 < n) (hfits : n < 2 ^ 53) :
    IsNormal (n * 2 ^ (52 - n.log2)) (n.log2 - 52) := by
  have hlog : n.log2 ≤ 52 := log2_le hpos hfits
  have hpower : 0 < 2 ^ (52 - n.log2) := Nat.two_pow_pos _
  obtain ⟨hlow, hhigh⟩ := (Nat.log2_eq_iff hpos.ne').mp rfl
  refine ⟨?_, ?_, by omega, by omega⟩
  · calc 2 ^ 52 = 2 ^ n.log2 * 2 ^ (52 - n.log2) := by rw [← pow_add, Nat.add_sub_cancel' hlog]
      _ ≤ n * 2 ^ (52 - n.log2) := Nat.mul_le_mul_right _ hlow
  · calc n * 2 ^ (52 - n.log2) < 2 ^ (n.log2 + 1) * 2 ^ (52 - n.log2) :=
          Nat.mul_lt_mul_of_pos_right hhigh hpower
      _ = 2 ^ 53 := by rw [← pow_add, Nat.add_right_comm, Nat.add_sub_cancel' hlog]

/-- Moving a number up does not change its value. -/
theorem value_of_log2_le {n : Nat} (hlog : n.log2 ≤ 52) :
    ((n * 2 ^ (52 - n.log2) : Nat) : ℚ) * 2 ^ ((n.log2 : Int) - 52) = n := by
  have hzero : ((52 - n.log2 : Nat) : Int) + (n.log2 - 52) = 0 := by omega
  push_cast
  rw [mul_assoc, ← zpow_natCast, ← zpow_add₀ two_ne_zero, hzero, zpow_zero, mul_one]

/-- A number beyond 53 binary digits, all others of which are zeros at its end, has a full
significand in front of some of these zeros. -/
theorem exists_isNormal_mul {m k : Nat} (hpos : 0 < m) (hm : m < 2 ^ 53) (hk : k ≤ 971)
    (hlarge : 2 ^ 53 ≤ m * 2 ^ k) :
    ∃ mantissa shift : Nat, IsNormal mantissa shift ∧ m * 2 ^ k = mantissa * 2 ^ shift := by
  obtain ⟨hwide, hfits, -, -⟩ := isNormal_of_lt hpos hm
  have hroom : 52 - m.log2 ≤ k := by
    by_contra hshort
    have hsmall : m * 2 ^ k < 2 ^ 53 :=
      calc m * 2 ^ k < 2 ^ (m.log2 + 1) * 2 ^ k :=
            Nat.mul_lt_mul_of_pos_right Nat.lt_log2_self (Nat.two_pow_pos k)
        _ = 2 ^ (m.log2 + 1 + k) := (pow_add 2 _ _).symm
        _ ≤ 2 ^ 53 := Nat.pow_le_pow_right two_pos (by omega)
    omega
  refine ⟨m * 2 ^ (52 - m.log2), k - (52 - m.log2), ⟨hwide, hfits, by omega, by omega⟩, ?_⟩
  rw [mul_assoc, ← pow_add, Nat.add_sub_cancel' hroom]

/-- A product of a significand of full width and a power of two has its width in the power. -/
theorem IsNormal.log2_mul_two_pow (hnormal : IsNormal mantissa exponent) (shift : Nat) :
    (mantissa * 2 ^ shift).log2 = 52 + shift := by
  have hpower : 0 < 2 ^ shift := Nat.two_pow_pos shift
  have hpos : 0 < mantissa * 2 ^ shift := Nat.mul_pos hnormal.pos hpower
  rw [Nat.log2_eq_iff hpos.ne', Nat.add_right_comm, pow_add, pow_add]
  exact ⟨Nat.mul_le_mul_right _ hnormal.wide, Nat.mul_lt_mul_of_pos_right hnormal.fits hpower⟩

/-- Zeros at the end are shifted out without a trace. -/
theorem shiftRight_exact (shift : Nat) : ∀ mantissa : Nat,
    (⟨mantissa * 2 ^ shift, false, false⟩ : ExtendedMantissa) >>> shift
      = ⟨mantissa, false, false⟩ := by
  induction shift with
  | zero =>
      intro mantissa
      rw [pow_zero, mul_one]
      rfl
  | succ shift ih =>
      intro mantissa
      show ((⟨mantissa * 2 ^ (shift + 1), false, false⟩ : ExtendedMantissa) >>> shift).shiftRightOne
        = ⟨mantissa, false, false⟩
      rw [pow_succ', ← mul_assoc, ih, ExtendedMantissa.shiftRightOne]
      simp

/-- The exponent at which a number with a full significand is rounded is its own. -/
theorem IsNormal.shiftToTargetExponent_eq (hnormal : IsNormal mantissa exponent) (shift : Nat) :
    shiftToTargetExponent .binary64 (mantissa * 2 ^ shift) (exponent - shift) .exact
      = (⟨mantissa, false, false⟩, exponent) := by
  have htarget : Format.binary64.targetExponent
      (Float.Model.totalExponent (mantissa * 2 ^ shift) (exponent - shift)) = exponent := by
    rw [Float.Model.totalExponent, hnormal.log2_mul_two_pow]
    show max (((52 + shift : Nat) : Int) + 1 + (exponent - shift) - 53) (-1074) = exponent
    have hleast := hnormal.least
    omega
  have hshift : (exponent - (exponent - shift)).toNat = shift := by omega
  have hexponent : exponent - shift + shift = exponent := by omega
  simp only [shiftToTargetExponent, htarget, shiftToExponent, hshift, hexponent,
    ExtendedMantissa.ofMantissaAndAccuracy, shiftRight_exact]

/-- A number with a full significand is rounded to itself, however many zeros are at its end. -/
theorem IsNormal.roundWithAccuracy_eq (hnormal : IsNormal mantissa exponent) (sign : Sign)
    (shift : Nat) :
    roundWithAccuracy .binary64 sign (mantissa * 2 ^ shift) (exponent - shift) .exact
      = .finite sign mantissa exponent hnormal.pos := by
  have hfirst := hnormal.shiftToTargetExponent_eq shift
  have hsecond : shiftToTargetExponent .binary64 mantissa exponent .exact
      = (⟨mantissa, false, false⟩, exponent) := by
    simpa using hnormal.shiftToTargetExponent_eq 0
  have hrounded : (⟨mantissa, false, false⟩ : ExtendedMantissa).roundedMantissa = mantissa := rfl
  simp only [roundWithAccuracy, hfirst, hrounded, hsecond]
  exact dif_neg hnormal.pos.ne'

/-- Packing a number with a full significand loses nothing. -/
theorem IsNormal.unpack_pack (hnormal : IsNormal mantissa exponent) (sign : Sign) :
    (Float.Model.pack (.finite sign mantissa exponent hnormal.pos)).unpack
      = .finite sign mantissa exponent hnormal.pos := by
  obtain ⟨hwide, hfits, hleast, hgreatest⟩ := hnormal
  let biased := (exponent + 1023 + 52).toNat
  have hroom : ¬ 2048 ≤ biased + 1 := by omega
  have hlog : mantissa.log2 + 1 = 53 := by
    rw [(Nat.log2_eq_iff (by omega)).mpr ⟨hwide, hfits⟩]
  have hpack : UnpackedFloat.pack .binary64 (.finite sign mantissa exponent (by omega))
      = packComponents .binary64 sign (BitVec.ofNat 11 biased) (BitVec.ofNat 52 mantissa) := by
    unfold UnpackedFloat.pack
    exact (if_neg hroom).trans (if_pos hlog)
  have hnonzero : BitVec.ofNat 11 biased ≠ 0#11 := by
    intro hzero
    have hnat : biased % 2048 = 0 := congrArg BitVec.toNat hzero
    omega
  have hbiased : (BitVec.ofNat 11 biased).toNat = exponent + 1075 := by
    show ((biased % 2048 : Nat) : Int) = exponent + 1075
    omega
  have hmantissa : (1#1 ++ BitVec.ofNat 52 mantissa).toNat = mantissa := by
    rw [toNat_implicit_append]
    show 2 ^ 52 + mantissa % 2 ^ 52 = mantissa
    omega
  show UnpackedFloat.unpack .binary64 (UnpackedFloat.pack .binary64 _) = _
  rw [hpack]
  unfold UnpackedFloat.unpack
  simp only [unpackExponent_packComponents, unpackMantissa_packComponents,
    unpackSign_packComponents, Sign.ofBitVec_toBitVec, hmantissa, hbiased]
  rw [if_neg (ofNat_ne_full hroom), if_neg hnonzero]
  congr 1
  show exponent + 1075 - (1023 + 52) = exponent
  omega

/-- What has a full significand when all rounding is done stays as it is. -/
theorem IsNormal.unpack_of_eq (hnormal : IsNormal mantissa exponent) {sign : Sign}
    {u : UnpackedFloat} (hu : u = .finite sign mantissa exponent hnormal.pos) :
    (Float.Model.pack u).unpack = .finite sign mantissa exponent hnormal.pos := by
  rw [hu, hnormal.unpack_pack]

/-- A word of at most 53 binary digits is moved up to the front of the significand. -/
theorem unpack_toFloat {n : Nat} (hpos : 0 < n) (hfits : n < 2 ^ 53) :
    n.toUInt64.toFloat.toModel.unpack
      = .finite .positive (n * 2 ^ (52 - n.log2)) (n.log2 - 52)
          (isNormal_of_lt hpos hfits).pos := by
  have hnormal := isNormal_of_lt hpos hfits
  have hlog : n.log2 ≤ 52 := log2_le hpos hfits
  have htoNat : n.toUInt64.toNat = n := by
    show n % 2 ^ 64 = n
    omega
  have hround : UnpackedFloat.round .binary64 .positive n 0
      = .finite .positive (n * 2 ^ (52 - n.log2)) (n.log2 - 52) hnormal.pos := by
    have htarget : Format.binary64.targetExponent (Float.Model.totalExponent n 0)
        = n.log2 - 52 := by
      show max ((n.log2 : Int) + 1 + 0 - 53) (-1074) = n.log2 - 52
      omega
    have hshift : (0 - ((n.log2 : Int) - 52)).toNat = 52 - n.log2 := by omega
    have hexponent : (0 : Int) - (52 - n.log2 : Nat) = n.log2 - 52 := by omega
    simp only [UnpackedFloat.round, htarget, decreaseExponent, hshift, hexponent, Nat.shiftLeft_eq]
    simpa using hnormal.roundWithAccuracy_eq .positive 0
  have hofUInt64 : UnpackedFloat.ofUInt64 .binary64 n.toUInt64
      = UnpackedFloat.round .binary64 .positive n 0 := by
    have hcompare : compare (n : Int) 0 = .gt := compare_gt_iff_gt.mpr (by omega)
    simp only [UnpackedFloat.ofUInt64, UnpackedFloat.ofNat, UnpackedFloat.ofInt,
      UnpackedFloat.normalize, htoNat, hcompare, Int.toNat_natCast]
  exact hnormal.unpack_of_eq (hofUInt64.trans hround)

/-- Of the factors that decimals are scaled by, the first is one. -/
theorem unpack_powerOfTen_zero :
    (Float.exactlyRepresentablePowersOfTen[0]).toModel.unpack
      = .finite .positive (2 ^ 52) (-52) (Nat.two_pow_pos 52) := by
  rfl

/-- A short decimal is read as a word and scaled by one. -/
theorem unpack_ofScientific_of_lt {n : Nat} (hpos : 0 < n) (hfits : n < 2 ^ 53) :
    (Float.ofScientific n false 0).toModel.unpack
      = .finite .positive (n * 2 ^ (52 - n.log2)) (n.log2 - 52)
          (isNormal_of_lt hpos hfits).pos := by
  have hscaled : Float.ofScientific n false 0
      = n.toUInt64.toFloat * Float.exactlyRepresentablePowersOfTen[0] := by
    unfold Float.ofScientific
    exact dif_pos ⟨hfits, by omega⟩
  rw [hscaled]
  apply (isNormal_of_lt hpos hfits).unpack_of_eq
  rw [unpack_toFloat hpos hfits, unpack_powerOfTen_zero]
  exact (isNormal_of_lt hpos hfits).roundWithAccuracy_eq .positive 52

/-- A long decimal is moved up by the width of a significand and rounded, which only takes off
zeros here. -/
theorem unpack_ofScientific_of_le {mantissa shift : Nat} (hnormal : IsNormal mantissa shift)
    (hlarge : 2 ^ 53 ≤ mantissa * 2 ^ shift) :
    (Float.ofScientific (mantissa * 2 ^ shift) false 0).toModel.unpack
      = .finite .positive mantissa shift hnormal.pos := by
  have hscaled : Float.ofScientific (mantissa * 2 ^ shift) false 0
      = ⟨Float.Model.ofScientific (mantissa * 2 ^ shift) 0⟩ := by
    unfold Float.ofScientific
    exact dif_neg fun hsmall => absurd hsmall.1 (by omega)
  have hround := hnormal.roundWithAccuracy_eq .positive (shift + 53)
  have hmantissa : mantissa * 2 ^ (shift + 53) = (mantissa * 2 ^ shift) <<< 53 * 10 ^ 0 := by
    rw [Nat.shiftLeft_eq, pow_zero, mul_one, mul_assoc, pow_add]
  have hexponent : (shift : Int) - (shift + 53 : Nat) = -53 + 0 := by omega
  have hfinite : ¬ (0 : Int) < -(2 ^ 11 + (mantissa * 2 ^ shift).log2) := by omega
  rw [hscaled]
  apply hnormal.unpack_of_eq
  unfold UnpackedFloat.ofScientific
  rw [dif_neg (by omega), if_neg (by decide), if_neg hfinite, if_pos le_rfl]
  rw [hmantissa, hexponent] at hround
  exact hround

/-- The integers among the doubles have at most 309 digits. -/
theorem mul_two_pow_lt {m k : Nat} (hm : m < 2 ^ 53) (hk : k ≤ 971) : m * 2 ^ k < 10 ^ 309 := by
  obtain ⟨rest, hrest⟩ := Nat.exists_eq_add_of_le hk
  have hgreatest : 2 ^ 53 * 2 ^ 971 ≤ 10 ^ 309 := by decide +kernel
  rw [hrest, pow_add, ← mul_assoc] at hgreatest
  calc m * 2 ^ k < 2 ^ 53 * 2 ^ k := Nat.mul_lt_mul_of_pos_right hm (Nat.two_pow_pos k)
    _ ≤ 2 ^ 53 * 2 ^ k * 2 ^ rest := Nat.le_mul_of_pos_right _ (Nat.two_pow_pos rest)
    _ ≤ 10 ^ 309 := hgreatest

/-- An integer of no more digits than that is read as a decimal. -/
theorem nearest_eq_ofScientific {n digits : Nat} (hpos : 0 < n) (hfew : digits ≤ 309)
    (hn : n < 10 ^ digits) : nearest n 0 = Float.ofScientific n false 0 := by
  have hsome : 0 < digits := by
    rcases Nat.eq_zero_or_pos digits with rfl | hsome
    · omega
    · exact hsome
  have hlength : (Nat.toDigits 10 n).length ≤ digits :=
    (Nat.length_toDigits_le_iff (by norm_num) hsome).mpr hn
  unfold nearest
  dsimp only
  rw [if_neg, if_neg (by omega)]
  · rfl
  · simp only [beq_iff_eq, not_or]
    omega

/-- A positive integer with few enough digits in base two is read as itself. -/
theorem exists_unpack_nearest {m k : Nat} (hpos : 0 < m) (hm : m < 2 ^ 53) (hk : k ≤ 971) :
    ∃ mantissa exponent, ∃ hnormal : IsNormal mantissa exponent,
      (mantissa : ℚ) * 2 ^ exponent = (m * 2 ^ k : Nat) ∧
      (nearest (m * 2 ^ k) 0).toModel.unpack = .finite .positive mantissa exponent hnormal.pos := by
  have hpower : 0 < m * 2 ^ k := Nat.mul_pos hpos (Nat.two_pow_pos k)
  rw [nearest_eq_ofScientific hpower le_rfl (mul_two_pow_lt hm hk)]
  by_cases hsmall : m * 2 ^ k < 2 ^ 53
  · exact ⟨_, _, isNormal_of_lt hpower hsmall, value_of_log2_le (log2_le hpower hsmall),
      unpack_ofScientific_of_lt hpower hsmall⟩
  · obtain ⟨mantissa, shift, hnormal, hsplit⟩ :=
      exists_isNormal_mul hpos hm hk (Nat.le_of_not_lt hsmall)
    rw [hsplit] at hsmall ⊢
    refine ⟨mantissa, shift, hnormal, ?_, ?_⟩
    · rw [zpow_natCast, Nat.cast_mul, Nat.cast_pow, Nat.cast_ofNat]
    · exact unpack_ofScientific_of_le hnormal (Nat.le_of_not_lt hsmall)

/-- Negation changes the sign alone. -/
theorem unpack_neg {x : Float} {sign : Sign} (hnormal : IsNormal mantissa exponent)
    (hx : x.toModel.unpack = .finite sign mantissa exponent hnormal.pos) :
    (-x).toModel.unpack = .finite (-sign) mantissa exponent hnormal.pos := by
  apply hnormal.unpack_of_eq
  rw [hx, UnpackedFloat.neg]

/-- The double of a natural number keeps its value under a sign. -/
theorem exactValue?_withSign {n : Int} {x : Float} (hnormal : IsNormal mantissa exponent)
    (hx : x.toModel.unpack = .finite .positive mantissa exponent hnormal.pos)
    (hvalue : (mantissa : ℚ) * 2 ^ exponent = n.natAbs) :
    exactValue? (withSign (n < 0) x) = some (n : ℚ) := by
  unfold withSign exactValue?
  by_cases hneg : n < 0
  · have hn : (n.natAbs : ℚ) = -n := by
      rw [Nat.cast_natAbs, abs_of_neg hneg, Int.cast_neg]
    rw [if_pos (decide_eq_true hneg), unpack_neg hnormal hx]
    show some (((-mantissa : Int) : ℚ) * 2 ^ exponent) = some (n : ℚ)
    rw [Int.cast_neg, Int.cast_natCast, neg_mul, hvalue, hn, neg_neg]
  · have hn : (n.natAbs : ℚ) = n := by
      rw [Nat.cast_natAbs, abs_of_nonneg (not_lt.mp hneg)]
    rw [if_neg (mt of_decide_eq_true hneg), hx]
    show some (((mantissa : Int) : ℚ) * 2 ^ exponent) = some (n : ℚ)
    rw [Int.cast_natCast, hvalue, hn]

/-- The double of an integer with few enough digits in base two is exact. -/
theorem exists_ofInt?_eq {n : Int} {m k : Nat} (hm : m < 2 ^ 53) (hk : k ≤ 971)
    (hn : n.natAbs = m * 2 ^ k) : ∃ x, ofInt? n = some x ∧ exactValue? x = some (n : ℚ) := by
  rcases Nat.eq_zero_or_pos m with rfl | hpos
  · have hzero : n = 0 := Int.natAbs_eq_zero.mp (by simpa using hn)
    subst hzero
    exact ⟨0.0, rfl, rfl⟩
  · obtain ⟨mantissa, exponent, hnormal, hvalue, hnearest⟩ := exists_unpack_nearest hpos hm hk
    rw [← hn] at hvalue hnearest
    have hfinite : isFinite (nearest n.natAbs 0) = true := by
      rw [← isSome_exactValue?_eq, exactValue?, hnearest]
      rfl
    exact ⟨_, if_pos hfinite, exactValue?_withSign hnormal hnearest hvalue⟩

/-- The parts of a decomposition are bounded. -/
theorem Binary.bounds_of_ofFloat? {x : Float} {b : Binary} (hb : Binary.ofFloat? x = some b) :
    b.magnitude < 2 ^ 53 ∧ b.exponent ≤ 971 := by
  have hfraction : x.toBits.toNat % Nat.pow 2 52 < 2 ^ 52 := Nat.mod_lt _ (by decide)
  have hfield : x.toBits.toNat / Nat.pow 2 52 % Nat.pow 2 11 < 2 ^ 11 := Nat.mod_lt _ (by decide)
  unfold Binary.ofFloat? at hb
  dsimp only at hb
  split at hb
  · cases hb
  · split at hb
    · cases hb
      constructor
      · exact lt_trans hfraction (by norm_num)
      · norm_num
    · next hfull _ =>
        cases hb
        rw [beq_iff_eq] at hfull
        constructor
        · show 2 ^ 52 + x.toBits.toNat % Nat.pow 2 52 < 2 ^ 53
          omega
        · show ((x.toBits.toNat / Nat.pow 2 52 % Nat.pow 2 11 : Nat) : Int) - 1075 ≤ 971
          omega

/-- What is an integer among the doubles has at most 53 digits in base two, up to zeros at the
end. -/
theorem IsDouble.exists_mul_two_pow {n : Int} (hn : IsDouble n) :
    ∃ m k, m < 2 ^ 53 ∧ k ≤ 971 ∧ n.natAbs = m * 2 ^ k := by
  obtain ⟨x, hx⟩ := hn
  rw [exactValue?_eq] at hx
  obtain ⟨b, hb, hvalue⟩ := Option.map_eq_some_iff.mp hx
  obtain ⟨hmagnitude, hexponent⟩ := Binary.bounds_of_ofFloat? hb
  have hpos : 0 < b.denominator := Nat.two_pow_pos _
  have hratio : n.natAbs * b.denominator = b.numerator := by
    have habs : (n.natAbs : ℚ) = b.numerator / b.denominator := by
      rw [Nat.cast_natAbs, Int.cast_abs, ← hvalue, b.abs_value]
    rw [eq_div_iff (by positivity)] at habs
    exact_mod_cast habs
  rcases le_total 0 b.exponent with hwhole | hfraction
  · refine ⟨b.magnitude, b.exponent.toNat, hmagnitude, by omega, ?_⟩
    rwa [Binary.denominator_of_nonneg hwhole, mul_one] at hratio
  · refine ⟨n.natAbs, 0, ?_, by omega, (mul_one _).symm⟩
    rw [Binary.numerator_of_nonpos hfraction] at hratio
    calc n.natAbs ≤ n.natAbs * b.denominator := Nat.le_mul_of_pos_right _ hpos
      _ = b.magnitude := hratio
      _ < 2 ^ 53 := hmagnitude

/-- An integer among the doubles has itself as its double. -/
theorem IsDouble.exists_ofInt?_eq {n : Int} (hn : IsDouble n) :
    ∃ x, ofInt? n = some x ∧ exactValue? x = some (n : ℚ) := by
  obtain ⟨m, k, hm, hk, hn⟩ := hn.exists_mul_two_pow
  exact Decimal.exists_ofInt?_eq hm hk hn

theorem isDouble_iff {n : Int} :
    IsDouble n ↔ ∃ m k, m < 2 ^ 53 ∧ k ≤ 971 ∧ n.natAbs = m * 2 ^ k := by
  constructor
  · exact IsDouble.exists_mul_two_pow
  · rintro ⟨m, k, hm, hk, hn⟩
    obtain ⟨x, -, hx⟩ := exists_ofInt?_eq hm hk hn
    exact ⟨x, hx⟩

/-- The integers of up to 53 binary digits are doubles, and so is the next one. -/
theorem isDouble_of_natAbs_le {n : Int} (hn : n.natAbs ≤ 2 ^ 53) : IsDouble n := by
  rw [isDouble_iff]
  rcases Nat.lt_or_eq_of_le hn with hlt | heq
  · exact ⟨n.natAbs, 0, hlt, by omega, (mul_one _).symm⟩
  · exact ⟨1, 53, by norm_num, by omega, heq.trans (one_mul _).symm⟩

end Stylesheet.Decimal
