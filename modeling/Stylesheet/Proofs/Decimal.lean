import Stylesheet.Decimal.Numeral
import Stylesheet.Number

/-!
# Doubles that are no numbers

NaN is the one double that differs from itself.  Numerals never stand for it, however large they
are.
-/

namespace Stylesheet.Decimal

open Float.Model (Format UnpackedFloat)
open Float.Model.UnpackedFloat

theorem isNaN_dite {p : Prop} [Decidable p] {u : p → UnpackedFloat} {v : ¬ p → UnpackedFloat}
    (hu : ∀ hp, (u hp).isNaN = false) (hv : ∀ hp, (v hp).isNaN = false) :
    (dite p u v).isNaN = false := by
  split
  · exact hu _
  · exact hv _

theorem isNaN_ite {p : Prop} [Decidable p] {u v : UnpackedFloat} (hu : u.isNaN = false)
    (hv : v.isNaN = false) : (if p then u else v).isNaN = false := by
  split
  · exact hu
  · exact hv

/-- An exponent field that is not full is that of no NaN. -/
theorem isNaN_unpack {bits : BitVec Format.binary64.numBits}
    (hexponent : unpackExponent bits ≠ -1#(Format.binary64.exponentBits)) :
    (UnpackedFloat.unpack .binary64 bits).isNaN = false := by
  unfold UnpackedFloat.unpack
  dsimp only
  rw [if_neg hexponent]
  exact isNaN_ite (isNaN_dite (fun _ => rfl) fun _ => rfl) rfl

theorem isNaN_unpack_packComponents (sign : Sign) {exponent : BitVec Format.binary64.exponentBits}
    (hexponent : exponent ≠ -1#(Format.binary64.exponentBits))
    (mantissa : BitVec Format.binary64.mantissaBitsWithoutImplicit) :
    (unpack .binary64 (packComponents .binary64 sign exponent mantissa)).isNaN = false := by
  apply isNaN_unpack
  rwa [unpackExponent_packComponents]

theorem isNaN_unpack_packedInfinity (sign : Sign) :
    (unpack .binary64 (packedInfinity .binary64 sign)).isNaN = false := by
  cases sign <;> rfl

theorem ofNat_ne_full {biased : Nat} (hroom : ¬ 2048 ≤ biased + 1) :
    BitVec.ofNat 11 biased ≠ -1#11 := by
  intro hfull
  have hnat : biased % 2048 = 2047 := congrArg BitVec.toNat hfull
  omega

/-- Packing makes no NaN of a number. -/
theorem isNaN_pack {u : UnpackedFloat} (hu : u.isNaN = false) :
    (Float.Model.pack u).isNaN = false := by
  show (unpack .binary64 (UnpackedFloat.pack .binary64 u)).isNaN = false
  cases u with
  | notANumber => cases hu
  | infinity sign => exact isNaN_unpack_packedInfinity sign
  | zero sign => exact isNaN_unpack_packComponents sign (by decide) _
  | finite sign mantissa exponent hmantissa =>
      unfold UnpackedFloat.pack
      dsimp only
      split
      · exact isNaN_unpack_packedInfinity sign
      · next hroom =>
          split
          · exact isNaN_unpack_packComponents sign (ofNat_ne_full hroom) _
          · exact isNaN_unpack_packComponents sign (by decide) _

theorem isNaN_roundWithAccuracy (format : Format) (sign : Sign) (mantissa : Nat) (exponent : Int)
    (accuracy : Accuracy) :
    (roundWithAccuracy format sign mantissa exponent accuracy).isNaN = false :=
  isNaN_dite (fun _ => rfl) fun _ => rfl

/-- What is computed from two finite numbers may be infinite, but is a number. -/
theorem isNaN_mul_finite {u : UnpackedFloat} (hu : u.isNaN = false) (sign : Sign) (mantissa : Nat)
    (exponent : Int) (hmantissa : 0 < mantissa) :
    (UnpackedFloat.mul .binary64 u (.finite sign mantissa exponent hmantissa)).isNaN = false := by
  cases u with
  | notANumber => cases hu
  | infinity | zero => rfl
  | finite => exact isNaN_roundWithAccuracy _ _ _ _ _

theorem isNaN_div_finite {u : UnpackedFloat} (hu : u.isNaN = false) (sign : Sign) (mantissa : Nat)
    (exponent : Int) (hmantissa : 0 < mantissa) :
    (UnpackedFloat.div .binary64 u (.finite sign mantissa exponent hmantissa)).isNaN = false := by
  cases u with
  | notANumber => cases hu
  | infinity | zero => rfl
  | finite => exact isNaN_roundWithAccuracy _ _ _ _ _

theorem isNaN_unpacked_ofScientific (mantissa : Nat) (exponent : Int) :
    (UnpackedFloat.ofScientific .binary64 mantissa exponent).isNaN = false := by
  unfold UnpackedFloat.ofScientific
  refine isNaN_dite (fun _ => rfl) fun _ => isNaN_ite rfl (isNaN_ite rfl (isNaN_ite ?_ ?_))
  · exact isNaN_mul_finite rfl _ _ _ _
  · exact isNaN_div_finite rfl _ _ _ _

/-- Whether a double is finite and not zero. -/
def isSomeNumber (x : Float) : Bool :=
  match x.toModel.unpack with
  | .finite _ _ _ _ => true
  | _ => false

theorem isSomeNumber_powerOfTen :
    ∀ e : Fin 23, isSomeNumber Float.exactlyRepresentablePowersOfTen[e] = true := by
  decide +kernel

theorem isNaN_mul {x y : Float} (hx : x.isNaN = false) (hy : isSomeNumber y = true) :
    (x * y).isNaN = false := by
  unfold isSomeNumber at hy
  split at hy
  · next hunpack =>
      apply isNaN_pack
      rw [hunpack]
      exact isNaN_mul_finite hx _ _ _ _
  · cases hy

theorem isNaN_div {x y : Float} (hx : x.isNaN = false) (hy : isSomeNumber y = true) :
    (x / y).isNaN = false := by
  unfold isSomeNumber at hy
  split at hy
  · next hunpack =>
      apply isNaN_pack
      rw [hunpack]
      exact isNaN_div_finite hx _ _ _ _
  · cases hy

theorem isNaN_toFloat (n : UInt64) : n.toFloat.isNaN = false := by
  apply isNaN_pack
  unfold UnpackedFloat.ofUInt64 UnpackedFloat.ofNat UnpackedFloat.ofInt UnpackedFloat.normalize
  split
  · exact isNaN_roundWithAccuracy _ _ _ _ _
  · rfl
  · exact isNaN_roundWithAccuracy _ _ _ _ _

theorem isNaN_ofScientific (mantissa : Nat) (negative : Bool) (exponent : Nat) :
    (Float.ofScientific mantissa negative exponent).isNaN = false := by
  unfold Float.ofScientific
  split
  · next hsmall =>
      -- scaled by a power of ten that is a double, so finite and not zero
      have hmantissa := isNaN_toFloat mantissa.toUInt64
      have hpower := isSomeNumber_powerOfTen ⟨exponent, by omega⟩
      cases negative with
      | true => exact isNaN_div hmantissa hpower
      | false => exact isNaN_mul hmantissa hpower
  · exact isNaN_pack (isNaN_unpacked_ofScientific _ _)

theorem isNaN_neg {x : Float} (hx : x.isNaN = false) : (-x).isNaN = false := by
  apply isNaN_pack
  have hunpacked : x.toModel.unpack.isNaN = false := hx
  generalize x.toModel.unpack = u at hunpacked
  cases u with
  | notANumber => cases hunpacked
  | infinity | zero | finite => rfl

theorem isNaN_withSign (negative : Bool) {x : Float} (hx : x.isNaN = false) :
    (withSign negative x).isNaN = false := by
  cases negative with
  | false => exact hx
  | true => exact isNaN_neg hx

theorem isNaN_nearest (mantissa : Nat) (exponent : Int) :
    (nearest mantissa exponent).isNaN = false := by
  unfold nearest
  dsimp only
  split
  · decide +kernel
  · split
    · decide +kernel
    · exact isNaN_ofScientific _ _ _

/-- A numeral stands for a number. -/
theorem Numeral.isNaN_toFloat (numeral : Numeral) : numeral.toFloat.isNaN = false :=
  isNaN_withSign _ (isNaN_nearest _ _)

theorem compare_self_eq_some {u : UnpackedFloat} (hu : u.isNaN = false) :
    u.compare u = some .eq := by
  cases u with
  | notANumber => cases hu
  | zero sign => rfl
  | infinity sign => cases sign <;> rfl
  | finite sign mantissa exponent hmantissa =>
      have hsame : (compare exponent exponent).then (compare mantissa mantissa) = .eq := by
        simp
      cases sign with
      | positive =>
          show some ((compare exponent exponent).then (compare mantissa mantissa)) = _
          rw [hsame]
      | negative =>
          show some ((compare exponent exponent).then (compare mantissa mantissa)).swap = _
          rw [hsame]
          rfl

/-- There is one NaN among unpacked doubles. -/
theorem unpack_of_isNaN {x : Float} (hnan : x.isNaN = true) :
    x.toModel.unpack = .notANumber := by
  have hunpacked : x.toModel.unpack.isNaN = true := hnan
  generalize x.toModel.unpack = u at hunpacked
  cases u with
  | notANumber => rfl
  | infinity | zero | finite => cases hunpacked

/-- A double equals itself unless it is NaN. -/
theorem beq_self_eq (x : Float) : (x == x) = !x.isNaN := by
  show (x.toModel.unpack.compare x.toModel.unpack == some .eq) = !x.isNaN
  cases hnan : x.isNaN with
  | false =>
      rw [compare_self_eq_some hnan]
      rfl
  | true =>
      rw [unpack_of_isNaN hnan]
      rfl

/-- The exponent field of a double. -/
theorem toNat_unpackExponent (x : Float) :
    (@unpackExponent .binary64 x.toBits.toBitVec).toNat
      = x.toBits.toNat / Nat.pow 2 52 % Nat.pow 2 11 := by
  rw [unpackExponent, BitVec.toNat_cast, BitVec.extractLsb_toNat, Nat.shiftRight_eq_div_pow]
  rfl

/-- The exponent field of NaN is full. -/
theorem exponent_of_isNaN {x : Float} (hnan : x.isNaN = true) :
    x.toBits.toNat / Nat.pow 2 52 % Nat.pow 2 11 = 2047 := by
  have hexponent : @unpackExponent .binary64 x.toBits.toBitVec = -1#11 := by
    refine Decidable.byContradiction fun hexponent => ?_
    have hnumber : x.isNaN = false := isNaN_unpack hexponent
    cases hnumber.symm.trans hnan
  rw [← toNat_unpackExponent, hexponent]
  rfl

/-- A double with an exact value is a number. -/
theorem isNaN_of_ofFloat?_eq_some {x : Float} {b : Binary} (hb : Binary.ofFloat? x = some b) :
    x.isNaN = false := by
  cases hnan : x.isNaN with
  | false => rfl
  | true => simp [Binary.ofFloat?, exponent_of_isNaN hnan] at hb

end Stylesheet.Decimal

namespace Stylesheet.Number

open Decimal

theorem compare_self (place : Place) : place.compare place = .eq := by
  cases place with
  | lowest | highest => rfl
  | finite n exponent => simp [Place.compare]

theorem same_self_of_place? {n : Number} {place : Place} (hplace : n.place? = some place) :
    n.same n = true := by
  have hcompare : n.compare? n = some .eq := by
    simp [compare?, hplace, compare_self]
  unfold same
  split
  · rfl
  · rw [hcompare]
    rfl

/-- Whether a number is a NaN that was computed: not the literal, which is one value. -/
def isComputedNaN : Number → Bool
  | real x => x.isNaN
  | _ => false

/-- A number is the same as itself unless it is a computed NaN. -/
theorem same_self_eq (n : Number) : n.same n = !n.isComputedNaN := by
  cases n with
  | integer n => exact same_self_of_place? rfl
  | nan => rfl
  | real x =>
      cases hbinary : Binary.ofFloat? x with
      | some b =>
          rw [isComputedNaN, isNaN_of_ofFloat?_eq_some hbinary]
          exact same_self_of_place? (by rw [place?, hbinary])
      | none =>
          have hplace : (real x).place?
              = if x.isNaN then none else some (if x < 0 then .lowest else .highest) := by
            rw [place?, hbinary]
          rw [isComputedNaN]
          cases hnan : x.isNaN with
          | false =>
              rw [hnan, if_neg Bool.false_ne_true] at hplace
              exact same_self_of_place? hplace
          | true =>
              rw [hnan, if_pos rfl] at hplace
              show ((real x).compare? (real x) == some .eq) = false
              rw [compare?, hplace]
              rfl

end Stylesheet.Number
