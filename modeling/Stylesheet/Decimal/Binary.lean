/-!
# Doubles as exact numbers

A finite double is an integer times a power of two.  Everything the library prints, compares or
rounds exactly goes through this decomposition.
-/

namespace Stylesheet.Decimal

/-- A finite double: `magnitude * 2 ^ exponent`, negated if `negative` is set. -/
structure Binary where
  negative : Bool
  magnitude : Nat
  exponent : Int
  /-- Whether the next double toward zero is only half as far away as the next one outward, as it
  is just above a power of two. -/
  narrowBelow : Bool
deriving Repr

/-- The exact value of a double; NaN and the infinities have none. -/
def Binary.ofFloat? (x : Float) : Option Binary :=
  let bits := x.toBits.toNat
  let negative := bits / Nat.pow 2 63 == 1
  let field : Nat := bits / Nat.pow 2 52 % Nat.pow 2 11
  let fraction : Nat := bits % Nat.pow 2 52
  if field == 2047 then none
  else if field == 0 then some ⟨negative, fraction, -1074, false⟩
  else
    some ⟨negative, Nat.pow 2 52 + fraction, (field : Int) - 1075, fraction == 0 && 1 < field⟩

def isFinite (x : Float) : Bool :=
  (Binary.ofFloat? x).isSome

def Binary.numerator (x : Binary) : Nat :=
  x.magnitude * Nat.pow 2 x.exponent.toNat

def Binary.denominator (x : Binary) : Nat :=
  Nat.pow 2 (-x.exponent).toNat

def Binary.signed (x : Binary) (magnitude : Nat) : Int :=
  if x.negative then -magnitude else magnitude

/-- The integer next to a value in the direction of zero. -/
def Binary.truncate (x : Binary) : Int :=
  x.signed (x.numerator / x.denominator)

/-- The greatest integer that is not above a value. -/
def Binary.floor (x : Binary) : Int :=
  Int.fdiv (x.signed x.numerator) x.denominator

/-- The least integer that is not below a value. -/
def Binary.ceil (x : Binary) : Int :=
  -Int.fdiv (-x.signed x.numerator) x.denominator

/-- The quotient `num / den` to the nearest integer; a half goes to the even neighbour. -/
def roundDiv (num den : Nat) : Nat :=
  match compare (2 * (num % den)) den with
  | .lt => num / den
  | .gt => num / den + 1
  | .eq => if num / den % 2 == 0 then num / den else num / den + 1

/-- Negate a double on demand. -/
def withSign (negative : Bool) (x : Float) : Float :=
  if negative then -x else x

/-- The double nearest to `mantissa * 10 ^ exponent`.  Values past the largest double become
infinite, values below half the least one become zero. -/
def nearest (mantissa : Nat) (exponent : Int) : Float :=
  let leading := (Nat.toDigits 10 mantissa).length + exponent
  if mantissa == 0 ∨ leading < -330 then 0.0
  else if 310 < leading then 1.0 / 0.0
  else Float.ofScientific mantissa (exponent < 0) exponent.natAbs

/-- The double nearest to an integer, or `none` if the integer is beyond all doubles. -/
def ofInt? (n : Int) : Option Float :=
  let x := nearest n.natAbs 0
  if isFinite x then some (withSign (n < 0) x) else none

end Stylesheet.Decimal
