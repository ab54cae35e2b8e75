import Stylesheet.Proofs.Decimal.Rounding

/-!
# Correctly rounded doubles

A double is a number correctly rounded if it has the sign of the number and no double is nearer, or,
far enough beyond the greatest double, if it is infinite.  Packing the nearest number of 53 binary
digits into a double gives such a double.
-/

namespace Stylesheet.Decimal

open Float.Model (Format UnpackedFloat)
open Float.Model.UnpackedFloat

def isNegative (x : Float) : Bool :=
  x.toBits.toNat / Nat.pow 2 63 == 1

def IsEven (x : Float) : Prop :=
  x.toBits.toNat % 2 = 0

/-- The number half a place beyond the greatest double. -/
def overflowBound : ℚ :=
  (2 ^ 54 - 1) * 2 ^ 970

def signed (negative : Bool) (magnitude : ℚ) : ℚ :=
  if negative then -magnitude else magnitude

/-- `Rounds negative magnitude x`: the double `x` is a number of a sign and a magnitude, correctly
rounded to nearest, ties to even. -/
structure Rounds (negative : Bool) (magnitude : ℚ) (x : Float) : Prop where
  sign : isNegative x = negative
  nearest : magnitude < overflowBound → ∃ v, exactValue? x = some v ∧
    ∀ y w, exactValue? y = some w → AsNear (signed negative magnitude) (IsEven x) v w
  overflow : overflowBound ≤ magnitude → x.isInf = true

def signOf (negative : Bool) : Sign :=
  if negative then .negative else .positive

/-- The double of a sign, a significand and an exponent; it is infinite when the exponent is too
large. -/
def double (negative : Bool) (mantissa : Nat) (exponent : Int) : Float :=
  ⟨Float.Model.pack (unpackedParts (signOf negative) mantissa exponent)⟩

variable {mantissa : Nat} {exponent : Int} {q : ℚ}

/-! ## Packing -/

/-- The fields of a packed double: the exponent field is zero for a number that does not reach the
first place. -/
theorem exists_pack_eq (hcanonical : IsCanonical mantissa exponent) (hgreatest : exponent ≤ 971)
    (sign : Sign) :
    ∃ field : BitVec 11, UnpackedFloat.pack .binary64 (unpackedParts sign mantissa exponent)
        = packComponents .binary64 sign field (BitVec.ofNat 52 mantissa) ∧
      (mantissa < 2 ^ 52 → exponent = -1074 ∧ field = 0#11) := by
  obtain ⟨hfits, hleast, hfull⟩ := hcanonical
  by_cases hzero : mantissa = 0
  · subst hzero
    exact ⟨0#11, rfl, fun _ => ⟨hfull.resolve_right (by norm_num), rfl⟩⟩
  have hroom : ¬ 2048 ≤ (exponent + 1023 + 52).toNat + 1 := by omega
  rw [unpackedParts, dif_neg hzero]
  unfold UnpackedFloat.pack
  rcases le_or_gt (2 ^ 52) mantissa with hwide | hnarrow
  · have hlog : mantissa.log2 + 1 = 53 := by
      rw [(Nat.log2_eq_iff hzero).mpr ⟨hwide, hfits⟩]
    exact ⟨_, (if_neg hroom).trans (if_pos hlog), fun hnarrow => absurd hwide (not_le.mpr hnarrow)⟩
  · have hlog : mantissa.log2 + 1 ≠ 53 := by
      have hlow := (Nat.log2_lt hzero).mpr hnarrow
      omega
    refine ⟨0#11, (if_neg hroom).trans (if_neg hlog), fun _ => ⟨?_, rfl⟩⟩
    exact hfull.resolve_right (not_le.mpr hnarrow)

/-- Packing a number that fits loses nothing. -/
theorem unpack_pack_unpackedParts (hcanonical : IsCanonical mantissa exponent)
    (hgreatest : exponent ≤ 971) (sign : Sign) :
    (Float.Model.pack (unpackedParts sign mantissa exponent)).unpack
      = unpackedParts sign mantissa exponent := by
  rcases le_or_gt (2 ^ 52) mantissa with hwide | hnarrow
  · have hnormal : IsNormal mantissa exponent :=
      ⟨hwide, hcanonical.fits, hcanonical.least, hgreatest⟩
    rw [unpackedParts, dif_neg hnormal.pos.ne', hnormal.unpack_pack]
  · obtain ⟨field, hpack, hfield⟩ := exists_pack_eq hcanonical hgreatest sign
    obtain ⟨rfl, rfl⟩ := hfield hnarrow
    have hmantissa : (BitVec.ofNat 52 mantissa).toNat = mantissa := Nat.mod_eq_of_lt hnarrow
    have hzero : BitVec.ofNat 52 mantissa = 0#52 ↔ mantissa = 0 := by
      rw [← BitVec.toNat_inj, hmantissa]
      rfl
    show UnpackedFloat.unpack .binary64 (UnpackedFloat.pack .binary64 _) = _
    rw [hpack]
    unfold UnpackedFloat.unpack unpackedParts
    simp only [unpackExponent_packComponents, unpackMantissa_packComponents,
      unpackSign_packComponents, Sign.ofBitVec_toBitVec, hmantissa, hzero]
    rfl

/-- Numbers with exponents too large are packed into infinities. -/
theorem pack_of_large (hcanonical : IsCanonical mantissa exponent) (hlarge : 971 < exponent)
    (sign : Sign) :
    Float.Model.pack (unpackedParts sign mantissa exponent) = Float.Model.pack (.infinity sign) := by
  have hwide : 2 ^ 52 ≤ mantissa := hcanonical.full.resolve_left (by omega)
  have hroom : 2048 ≤ (exponent + 1023 + 52).toNat + 1 := by omega
  have hpack : UnpackedFloat.pack .binary64 (unpackedParts sign mantissa exponent)
      = UnpackedFloat.pack .binary64 (.infinity sign) := by
    rw [unpackedParts, dif_neg (by omega)]
    unfold UnpackedFloat.pack
    exact if_pos hroom
  simp only [Float.Model.pack, hpack]

theorem unpack_pack_infinity (sign : Sign) :
    (Float.Model.pack (.infinity sign)).unpack = .infinity sign := by
  cases sign <;> rfl

theorem isNegative_of_toBits {x : Float} {negative : Bool} {field : BitVec 11}
    {fraction : BitVec 52} (hbits : x.toBits.toBitVec
      = packComponents .binary64 (signOf negative) field fraction) : isNegative x = negative := by
  have hsign := apply_unpackSign x 1
  rw [hbits, unpackSign_packComponents, Sign.ofBitVec_toBitVec] at hsign
  rw [isNegative]
  cases negative <;> split at hsign
  · cases hsign
  · exact Bool.eq_false_iff.mpr ‹_›
  · assumption
  · cases hsign

theorem isEven_of_toBits {x : Float} {sign : Sign} {field : BitVec 11}
    (hbits : x.toBits.toBitVec
      = packComponents .binary64 sign field (BitVec.ofNat 52 mantissa)) :
    IsEven x ↔ mantissa % 2 = 0 := by
  have hfraction := toNat_unpackMantissa x
  rw [hbits, unpackMantissa_packComponents] at hfraction
  replace hfraction : mantissa % 2 ^ 52 = x.toBits.toNat % 2 ^ 52 := hfraction
  unfold IsEven
  omega

/-! ## Doubles of a significand and an exponent -/

theorem exactValue?_double (hcanonical : IsCanonical mantissa exponent)
    (hgreatest : exponent ≤ 971) (negative : Bool) :
    exactValue? (double negative mantissa exponent)
      = some (signed negative (mantissa * 2 ^ exponent)) := by
  have hvalue : unpackedValue? (unpackedParts (signOf negative) mantissa exponent)
      = some (signed negative (mantissa * 2 ^ exponent)) := by
    by_cases hzero : mantissa = 0
    · subst hzero
      cases negative <;> simp [unpackedParts, unpackedValue?, signed]
    · rw [unpackedParts, dif_neg hzero]
      cases negative <;> simp [unpackedValue?, signed, signOf, Sign.apply]
  rw [exactValue?, double, unpack_pack_unpackedParts hcanonical hgreatest, hvalue]

theorem isInf_double (hcanonical : IsCanonical mantissa exponent) (hlarge : 971 < exponent)
    (negative : Bool) : (double negative mantissa exponent).isInf = true := by
  show (Float.Model.pack (unpackedParts (signOf negative) mantissa exponent)).unpack.isInf = true
  rw [pack_of_large hcanonical hlarge, unpack_pack_infinity]
  rfl

theorem isNegative_double (hcanonical : IsCanonical mantissa exponent) (negative : Bool) :
    isNegative (double negative mantissa exponent) = negative := by
  rcases le_or_gt exponent 971 with hgreatest | hlarge
  · obtain ⟨field, hpack, -⟩ := exists_pack_eq hcanonical hgreatest (signOf negative)
    exact isNegative_of_toBits hpack
  · have hpack := congrArg (fun m : Float.Model => m.toBits.toBitVec)
      (pack_of_large hcanonical hlarge (signOf negative))
    exact isNegative_of_toBits hpack

theorem isEven_double_iff (hcanonical : IsCanonical mantissa exponent) (hgreatest : exponent ≤ 971)
    (negative : Bool) : IsEven (double negative mantissa exponent) ↔ mantissa % 2 = 0 := by
  obtain ⟨field, hpack, -⟩ := exists_pack_eq hcanonical hgreatest (signOf negative)
  exact isEven_of_toBits hpack

/-- Negation changes the sign of a double and nothing else. -/
theorem neg_double (hcanonical : IsCanonical mantissa exponent) :
    -double false mantissa exponent = double true mantissa exponent := by
  have hneg : (unpackedParts .positive mantissa exponent).neg
      = unpackedParts .negative mantissa exponent := by
    unfold unpackedParts
    split <;> rfl
  show (⟨Float.Model.pack (Float.Model.pack (unpackedParts .positive mantissa exponent)).unpack.neg⟩
    : Float) = ⟨Float.Model.pack (unpackedParts .negative mantissa exponent)⟩
  rcases le_or_gt exponent 971 with hgreatest | hlarge
  · rw [unpack_pack_unpackedParts hcanonical hgreatest, hneg]
  · rw [pack_of_large hcanonical hlarge, pack_of_large hcanonical hlarge, unpack_pack_infinity]
    rfl

theorem withSign_double (hcanonical : IsCanonical mantissa exponent) (negative : Bool) :
    withSign negative (double false mantissa exponent) = double negative mantissa exponent := by
  cases negative with
  | false => rfl
  | true => exact neg_double hcanonical

theorem Binary.least_of_ofFloat? {x : Float} {b : Binary} (hb : Binary.ofFloat? x = some b) :
    -1074 ≤ b.exponent := by
  unfold Binary.ofFloat? at hb
  dsimp only at hb
  split at hb
  · cases hb
  · split at hb
    · cases hb
      exact le_rfl
    · next hfield =>
        cases hb
        rw [beq_iff_eq] at hfield
        dsimp only
        omega

/-- The value of a double has 53 binary digits at most. -/
theorem exists_abs_eq {x : Float} {v : ℚ} (hx : exactValue? x = some v) :
    ∃ (other : Nat) (power : Int), other < 2 ^ 53 ∧ -1074 ≤ power ∧ |v| = other * 2 ^ power := by
  rw [exactValue?_eq] at hx
  obtain ⟨b, hb, rfl⟩ := Option.map_eq_some_iff.mp hx
  have hpower : (0 : ℚ) < 2 ^ b.exponent := zpow_pos two_pos _
  refine ⟨b.magnitude, b.exponent, (Binary.bounds_of_ofFloat? hb).1, Binary.least_of_ofFloat? hb, ?_⟩
  rw [Binary.value, Binary.signed, abs_mul, abs_of_pos hpower]
  split
  · push_cast
    rw [abs_neg, Nat.abs_cast]
  · push_cast
    rw [Nat.abs_cast]

/-! ## The nearest double -/

/-- The powers of two around the bound of overflow, in halves of the last place there. -/
theorem exists_unit : ∃ unit : ℚ, 0 < unit ∧ overflowBound = (2 ^ 54 - 1) * unit ∧
    (2 : ℚ) ^ (971 : Int) = 2 * unit ∧ (2 : ℚ) ^ (972 : Int) = 4 * unit := by
  have htwo : (2 : ℚ) ≠ 0 := two_ne_zero
  have hgreatest : (2 : ℚ) ^ (971 : Int) = 2 * 2 ^ 970 := by
    have hpower := zpow_add_one₀ htwo 970
    rw [mul_comm] at hpower
    exact hpower
  refine ⟨2 ^ 970, pow_pos two_pos 970, rfl, hgreatest, ?_⟩
  have hpower := zpow_add_one₀ htwo 971
  rw [hgreatest, mul_right_comm] at hpower
  norm_num only at hpower
  exact hpower

/-- A number at the bound of overflow or beyond it is not nearest to a double: the significand of
the greatest one is odd. -/
theorem IsNearest.lt_overflowBound (hnearest : IsNearest q mantissa exponent)
    (hfits : mantissa < 2 ^ 53) (hgreatest : exponent ≤ 971) : q < overflowBound := by
  obtain ⟨unit, hunit, hbound, hpower, hnext⟩ := exists_unit
  have hmax : (mantissa : ℚ) * 2 ^ exponent ≤ mantissa * (2 * unit) := by
    rw [← hpower]
    exact mul_le_mul_of_nonneg_left (zpow_le_zpow_right₀ one_le_two hgreatest) (Nat.cast_nonneg _)
  have hnear := hnearest (2 ^ 52) 972 (by norm_num) (by norm_num)
  rw [hnext, Nat.cast_pow, Nat.cast_ofNat] at hnear
  rw [hbound]
  clear hbound hpower hnext
  by_contra hlarge
  have hbelow : (mantissa : ℚ) * (2 * unit) ≤ (2 ^ 53 - 1) * (2 * unit) := by
    have hless : (mantissa : ℚ) + 1 ≤ 2 ^ 53 := by exact_mod_cast hfits
    exact mul_le_mul_of_nonneg_right (by linarith) (by linarith)
  have habs : |(mantissa : ℚ) * 2 ^ exponent - q| = q - mantissa * 2 ^ exponent := by
    rw [abs_sub_comm, abs_of_nonneg (by linarith)]
  rcases hnear with hsame | hlt | ⟨htie, heven⟩
  · linarith
  · rw [habs, lt_abs] at hlt
    rcases hlt with hlt | hlt <;> linarith
  · have hless : (mantissa : ℚ) + 2 ≤ 2 ^ 53 := by
      exact_mod_cast (show mantissa + 2 ≤ 2 ^ 53 by omega)
    have hodd : (mantissa : ℚ) * (2 * unit) ≤ (2 ^ 53 - 2) * (2 * unit) :=
      mul_le_mul_of_nonneg_right (by linarith) (by linarith)
    rw [habs] at htie
    rcases abs_cases (2 ^ 52 * (4 * unit) - q) with ⟨hcase, -⟩ | ⟨hcase, -⟩ <;> linarith

/-- A number below the bound of overflow is nearer to the greatest double than to any larger number
of 53 binary digits. -/
theorem IsNearest.overflowBound_le (hnearest : IsNearest q mantissa exponent)
    (hwide : 2 ^ 52 ≤ mantissa) (hlarge : 971 < exponent) : overflowBound ≤ q := by
  obtain ⟨unit, hunit, hbound, hpower, hnext⟩ := exists_unit
  have hmin : (2 ^ 52 : ℚ) * (4 * unit) ≤ mantissa * 2 ^ exponent := by
    rw [← hnext]
    exact mul_le_mul (by exact_mod_cast hwide) (zpow_le_zpow_right₀ one_le_two (by omega))
      (zpow_pos two_pos _).le (Nat.cast_nonneg _)
  have hnear := (hnearest (2 ^ 53 - 1) 971 (by norm_num) (by norm_num)).le
  rw [hpower, Nat.cast_sub (by norm_num), Nat.cast_pow, Nat.cast_ofNat, Nat.cast_one] at hnear
  rw [hbound]
  clear hbound hpower hnext
  by_contra hsmall
  rw [abs_of_nonneg (by linarith)] at hnear
  rcases abs_cases ((2 ^ 53 - 1) * (2 * unit) - q) with ⟨hcase, -⟩ | ⟨hcase, -⟩ <;> linarith

theorem signed_signed (negative : Bool) (x : ℚ) : signed negative (signed negative x) = x := by
  cases negative with
  | false => rfl
  | true => exact neg_neg x

theorem abs_signed (negative : Bool) (x : ℚ) : |signed negative x| = |x| := by
  cases negative with
  | false => rfl
  | true => exact abs_neg x

theorem asNear_signed {even : Prop} {v w : ℚ} (hnear : AsNear q even v w) (negative : Bool) :
    AsNear (signed negative q) even (signed negative v) (signed negative w) := by
  cases negative with
  | false => exact hnear
  | true => exact hnear.neg

/-- No double is nearer to a number than the nearest number of 53 binary digits. -/
theorem IsNearest.asNear (hnearest : IsNearest q mantissa exponent) (hq : 0 ≤ q) {x : Float} {w : ℚ}
    (hw : exactValue? x = some w) (negative : Bool) :
    AsNear (signed negative q) (mantissa % 2 = 0) (signed negative (mantissa * 2 ^ exponent)) w := by
  obtain ⟨other, power, hother, hpower, habs⟩ := exists_abs_eq hw
  rw [← signed_signed negative w]
  apply asNear_signed
  rw [← abs_signed negative] at habs
  rcases le_total 0 (signed negative w) with hpos | hneg
  · rw [abs_of_nonneg hpos] at habs
    rw [habs]
    exact hnearest other power hother hpower
  · have hzero := hnearest 0 (-1074) (by norm_num) le_rfl
    rw [Nat.cast_zero, zero_mul] at hzero
    exact hzero.of_nonpos hq hneg

/-- The double of the nearest number of 53 binary digits is correctly rounded. -/
theorem IsNearest.rounds (hnearest : IsNearest q mantissa exponent)
    (hcanonical : IsCanonical mantissa exponent) (hq : 0 ≤ q) (negative : Bool) :
    Rounds negative q (double negative mantissa exponent) := by
  refine ⟨isNegative_double hcanonical negative, fun hsmall => ?_, fun hlarge => ?_⟩
  · have hgreatest : exponent ≤ 971 := by
      by_contra hlarge
      have hwide : 2 ^ 52 ≤ mantissa := hcanonical.full.resolve_left (by omega)
      have hoverflow := hnearest.overflowBound_le hwide (not_le.mp hlarge)
      exact absurd hsmall (not_lt.mpr hoverflow)
    have heven : IsEven (double negative mantissa exponent) = (mantissa % 2 = 0) :=
      propext (isEven_double_iff hcanonical hgreatest negative)
    refine ⟨_, exactValue?_double hcanonical hgreatest negative, fun y w hw => ?_⟩
    rw [heven]
    exact hnearest.asNear hq hw negative
  · refine isInf_double hcanonical (not_le.mp fun hgreatest => ?_) negative
    exact absurd hlarge (not_le.mpr (hnearest.lt_overflowBound hcanonical.fits hgreatest))

end Stylesheet.Decimal
