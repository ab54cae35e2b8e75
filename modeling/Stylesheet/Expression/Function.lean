import Stylesheet.Decimal.Binary

/-!
# Functions

The functions that expressions can call.  Rounding goes through exact integers, so it is right for
every double.
-/

namespace Stylesheet

/-- The functions of the language. -/
inductive Function where
  | abs
  | min
  | max
  | floor
  | ceil
  | round
  | sqrt
  | pow
deriving DecidableEq, Repr

/-- Why a function has no value at its arguments. -/
inductive FunctionFault where
  | infinityToInteger
  | nanToInteger
  /-- The arguments are outside the domain of the function. -/
  | domain
  /-- The value is beyond all doubles. -/
  | range
  | roundedTooLarge
  /-- The number of arguments fits no case of the function. -/
  | arity
deriving DecidableEq, Repr

def FunctionFault.message : FunctionFault → String
  | infinityToInteger => "cannot convert float infinity to integer"
  | nanToInteger => "cannot convert float NaN to integer"
  | domain => "math domain error"
  | range => "math range error"
  | roundedTooLarge => "rounded value too large to represent"
  | arity => "wrong number of arguments"

namespace Function

open Decimal

/-- All functions, in the order in which they are listed. -/
def all : List Function := [abs, min, max, floor, ceil, round, sqrt, pow]

def name : Function → String
  | abs => "abs"
  | min => "min"
  | max => "max"
  | floor => "floor"
  | ceil => "ceil"
  | round => "round"
  | sqrt => "sqrt"
  | pow => "pow"

def ofName? (text : String) : Option Function :=
  all.find? fun f => f.name == text

def description : Function → String
  | abs => "Returns absolute value"
  | min => "Returns minimum value"
  | max => "Returns maximum value"
  | floor => "Rounds down to nearest integer"
  | ceil => "Rounds up to nearest integer"
  | round => "Rounds to specified decimal places"
  | sqrt => "Returns the square root"
  | pow => "Raises a number to a power"

def minArguments : Function → Nat
  | pow => 2
  | _ => 1

/-- The greatest number of arguments, if there is one. -/
def maxArguments? : Function → Option Nat
  | min | max => none
  | round | pow => some 2
  | _ => some 1

def examples : Function → List String
  | abs => ["abs(-4)"]
  | min => ["min(iPhone8.width, 360)"]
  | max => ["max(12, iPhoneSE.width / 20)"]
  | round => ["round(iPhoneX.height / 3)"]
  | _ => []

/-- Whether a function takes a number of arguments. -/
def accepts (f : Function) (count : Nat) : Bool :=
  f.minArguments ≤ count && (f.maxArguments?.map fun most => decide (count ≤ most)).getD true

/-- The exact value of a double that is to become an integer. -/
def exact (x : Float) : Except FunctionFault Binary :=
  match Binary.ofFloat? x with
  | some b => .ok b
  | none => .error (if x.isNaN then .nanToInteger else .infinityToInteger)

/-- The double of an integer that came from a double. -/
def ofInteger (n : Int) : Float :=
  withSign (n < 0) (nearest n.natAbs 0)

/-- A value rounded to a number of decimal places; a half goes to the even neighbour.  Beyond 323
places nothing is left to round, and below -308 nothing is left. -/
def roundTo (x : Float) (places : Int) : Except FunctionFault Float :=
  match Binary.ofFloat? x with
  | none => .ok x
  | some b =>
      if 323 < places then .ok x
      else if places < -308 then .ok (0.0 * x)
      else
        let units := roundDiv (b.numerator * Nat.pow 10 places.toNat)
          (b.denominator * Nat.pow 10 (-places).toNat)
        let rounded := nearest units (-places)
        if isFinite rounded then .ok (withSign b.negative rounded) else .error .roundedTooLarge

def apply : Function → List Float → Except FunctionFault Float
  | abs, [x] => .ok x.abs
  | min, x :: rest => .ok (rest.foldl (fun least y => if y < least then y else least) x)
  | max, x :: rest => .ok (rest.foldl (fun most y => if most < y then y else most) x)
  | floor, [x] => return ofInteger (← exact x).floor
  | ceil, [x] => return ofInteger (← exact x).ceil
  | round, [x] => roundTo x 0
  | round, [x, places] => do roundTo x (← exact places).truncate
  | sqrt, [x] => if x < 0 then .error .domain else .ok x.sqrt
  | pow, [x, y] =>
      let value := x.pow y
      if !(isFinite x && isFinite y) || isFinite value then .ok value
      else if value.isNaN || x == 0 then .error .domain
      else .error .range
  | _, _ => .error .arity

end Function

end Stylesheet
