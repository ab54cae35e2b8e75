import Stylesheet.Decimal.Text

/-!
# Numbers

Documents, variables and screen sizes hold integers of any size and doubles side by side.  Numbers
compare by their exact values, whichever way they are written.
-/

namespace Stylesheet

/-- A number as it is written. -/
inductive Number where
  | integer (n : Int)
  | real (x : Float)
  /-- The literal `.nan`.  A computed NaN differs from itself; this one is a single value, equal
  to itself. -/
  | nan

namespace Number

open Decimal

/-- The nearest double, or `none` for an integer beyond all doubles. -/
def toFloat? : Number → Option Float
  | integer n => ofInt? n
  | real x => some x
  | nan => some (0.0 / 0.0)

def tooLarge : String := "int too large to convert to float"

/-- Integers print as they are, doubles with the fewest digits that identify them. -/
def text : Number → String
  | integer n => toString n
  | real x => toText x
  | nan => "nan"

/-- A place on the number line, its two ends included. -/
inductive Place where
  | lowest
  /-- The number `n * 2 ^ exponent`. -/
  | finite (n exponent : Int)
  | highest

def Place.compare : Place → Place → Ordering
  | finite a i, finite b j =>
      Ord.compare (a * Nat.pow 2 (i - j).toNat) (b * Nat.pow 2 (j - i).toNat)
  | lowest, lowest | highest, highest => .eq
  | lowest, _ | _, highest => .lt
  | highest, _ | _, lowest => .gt

/-- Where a number lies exactly; NaN lies nowhere. -/
def place? : Number → Option Place
  | integer n => some (.finite n 0)
  | nan => none
  | real x => match Binary.ofFloat? x with
    | some b => some (.finite (b.signed b.magnitude) b.exponent)
    | none => if x.isNaN then none else some (if x < 0 then .lowest else .highest)

/-- The order of two numbers by their exact values; NaN is in no order with anything. -/
def compare? (a b : Number) : Option Ordering := do
  return (← a.place?).compare (← b.place?)

/-- Whether two numbers are the same value: equal exactly, or both the literal `.nan`. -/
def same (a b : Number) : Bool :=
  match a, b with
  | nan, nan => true
  | _, _ => a.compare? b == some .eq

def lt (a b : Number) : Bool :=
  a.compare? b == some .lt

/-- Whether one number is at least another; false if either is NaN. -/
def ge (a b : Number) : Bool :=
  match a.compare? b with
  | some .gt | some .eq => true
  | _ => false

end Number

end Stylesheet
