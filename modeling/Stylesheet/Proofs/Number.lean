import Stylesheet.Proofs.Decimal.Exact

/-!
# The values of numbers

A number, be it written as an integer or as a double, has a place among the rational numbers and the
two infinities; NaN has none.  Numbers are the same when they have the same place.
-/

namespace Stylesheet.Number

open Decimal

/-- The rational numbers with an end on either side. -/
abbrev Line : Type :=
  WithBot (WithTop ℚ)

def point (q : ℚ) : Line :=
  ((q : WithTop ℚ) : WithBot (WithTop ℚ))

/-- The end of the line beyond all rational numbers. -/
def infinity : Line :=
  ((⊤ : WithTop ℚ) : WithBot (WithTop ℚ))

theorem point_inj {p q : ℚ} : point p = point q ↔ p = q := by
  rw [point, point, WithBot.coe_inj, WithTop.coe_inj]

theorem point_ne_infinity (q : ℚ) : point q ≠ infinity :=
  fun heq => WithTop.coe_ne_top (WithBot.coe_inj.mp heq)

theorem point_ne_bot (q : ℚ) : point q ≠ ⊥ :=
  WithBot.coe_ne_bot

theorem infinity_ne_bot : infinity ≠ ⊥ :=
  WithBot.coe_ne_bot

/-- The value of a number: a rational, or one of the ends of the line.  NaN has no value. -/
def value? : Number → Option Line
  | integer n => some (point n)
  | real x => match exactValue? x with
    | some q => some (point q)
    | none => if x.isNaN then none else some (if x < 0 then ⊥ else infinity)
  | nan => none

def Place.value : Place → Line
  | lowest => ⊥
  | finite n exponent => point (n * 2 ^ exponent)
  | highest => infinity

theorem value?_eq_map_place? (n : Number) : n.value? = n.place?.map Place.value := by
  cases n with
  | integer n => simp [value?, place?, Place.value]
  | nan => rfl
  | real x =>
      rw [value?, place?, exactValue?_eq]
      cases Binary.ofFloat? x with
      | some b => rfl
      | none =>
          simp only [Option.map_none]
          split
          · rfl
          · split <;> rfl

/-- Bringing two numbers to one exponent does not change whether they are equal. -/
theorem aligned_eq_iff (a b i j : Int) :
    a * Nat.pow 2 (i - j).toNat = b * Nat.pow 2 (j - i).toNat ↔
      (a : ℚ) * 2 ^ i = b * 2 ^ j := by
  have hleft : (2 : ℚ) ^ i = 2 ^ (i - j).toNat * 2 ^ min i j := by
    rw [← zpow_natCast, ← zpow_add₀ two_ne_zero]
    congr 1
    omega
  have hright : (2 : ℚ) ^ j = 2 ^ (j - i).toNat * 2 ^ min i j := by
    rw [← zpow_natCast, ← zpow_add₀ two_ne_zero]
    congr 1
    omega
  have hcommon : (2 : ℚ) ^ min i j ≠ 0 := zpow_ne_zero _ two_ne_zero
  rw [hleft, hright, ← mul_assoc, ← mul_assoc, mul_left_inj' hcommon, ← Int.cast_inj (α := ℚ)]
  push_cast [Nat.pow_eq]
  rfl

theorem Place.compare_eq_eq_iff (a b : Place) : a.compare b = .eq ↔ a.value = b.value := by
  cases a with
  | lowest =>
      cases b with
      | lowest => exact iff_of_true rfl rfl
      | finite m j => exact iff_of_false (by rintro ⟨⟩) (point_ne_bot _).symm
      | highest => exact iff_of_false (by rintro ⟨⟩) infinity_ne_bot.symm
  | highest =>
      cases b with
      | lowest => exact iff_of_false (by rintro ⟨⟩) infinity_ne_bot
      | finite m j => exact iff_of_false (by rintro ⟨⟩) (point_ne_infinity _).symm
      | highest => exact iff_of_true rfl rfl
  | finite n i =>
      cases b with
      | lowest => exact iff_of_false (by rintro ⟨⟩) (point_ne_bot _)
      | finite m j => rw [compare, compare_eq_iff_eq, aligned_eq_iff, value, value, point_inj]
      | highest => exact iff_of_false (by rintro ⟨⟩) (point_ne_infinity _)

/-- Numbers are the same when they have the same value. -/
theorem same_iff_value?_eq {a : Number} (ha : a.value?.isSome = true) (b : Number) :
    a.same b = true ↔ a.value? = b.value? := by
  have hcompare : a.same b = (a.compare? b == some .eq) := by
    cases a with
    | integer n => rfl
    | real x => rfl
    | nan => cases ha
  rw [hcompare, beq_iff_eq, compare?]
  rw [value?_eq_map_place?, Option.isSome_map] at ha
  obtain ⟨place, hplace⟩ := Option.isSome_iff_exists.mp ha
  rw [value?_eq_map_place?, value?_eq_map_place?, hplace]
  cases b.place? with
  | none => simp
  | some other => simp [Place.compare_eq_eq_iff]

end Stylesheet.Number
