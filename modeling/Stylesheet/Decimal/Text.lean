import Stylesheet.Decimal.Binary

/-!
# Doubles as text

Two decisions make the text of a double: which digits are written and how they are laid out.
Digits are chosen exactly, from the binary value; the layout is a record, `NumberStyle`.
-/

namespace Stylesheet.Decimal

/-- A positive decimal number, `digits * 10 ^ exponent`. -/
structure Digits where
  digits : Nat
  exponent : Int
deriving Repr, DecidableEq

/-- The number of digits before the decimal point; zero or less for a number below `0.1`. -/
def Binary.scale (x : Binary) : Int :=
  if x.denominator ≤ x.numerator then
    (Nat.toDigits 10 (x.numerator / x.denominator)).length
  else
    1 - (Nat.toDigits 10 (x.denominator / x.numerator)).length

/-- A value as a fraction in units of `10 ^ exponent`. -/
def Binary.inUnits (x : Binary) (exponent : Int) : Nat × Nat :=
  (x.numerator * Nat.pow 10 (-exponent).toNat, x.denominator * Nat.pow 10 exponent.toNat)

/-- The decimal with `count` significant digits that reads back as the value, if there is one; of
two such decimals the nearer, of two equally near ones the even. -/
def Binary.readableWith (x : Binary) (count : Nat) : Option Digits :=
  let exponent := x.scale - count
  let (num, den) := x.inUnits exponent
  -- the gap to the next double outward, in units of `1 / den`
  let gap := num / x.magnitude
  let below := num / den
  let rest := num % den
  let within (twice : Nat) : Bool := twice < gap || twice == gap && x.magnitude % 2 == 0
  let belowReads := within (if x.narrowBelow then 4 * rest else 2 * rest)
  let aboveReads := within (2 * (den - rest))
  match belowReads, aboveReads with
  | false, false => none
  | true, false => some ⟨below, exponent⟩
  | false, true => some ⟨below + 1, exponent⟩
  | true, true => some ⟨roundDiv num den, exponent⟩

/-- Move the zeros at the end of the digits into the exponent; `fuel` bounds their number. -/
def Digits.strip : Nat → Digits → Digits
  | 0, d => d
  | fuel + 1, d =>
      if d.digits % 10 == 0 then Digits.strip fuel ⟨d.digits / 10, d.exponent + 1⟩ else d

/-- The fewest digits that read back as a positive value.  Seventeen always suffice. -/
def Binary.shortest (x : Binary) : Digits :=
  match (List.range 17).findSome? fun n => x.readableWith (n + 1) with
  | some d => d.strip 17
  | none => ⟨x.numerator * Nat.pow 5 (-x.exponent).toNat, min x.exponent 0⟩

/-- A positive value rounded to `count` significant digits; a half goes to the even neighbour. -/
def Binary.significant (x : Binary) (count : Nat) : Digits :=
  let exponent := x.scale - count
  let (num, den) := x.inUnits exponent
  Digits.strip (count + 1) ⟨roundDiv num den, exponent⟩

structure NumberStyle where
  /-- Numbers from `0.0001` up to `10 ^ plainBelow` are written with a point in place, others with
  an exponent. -/
  plainBelow : Int
  /-- Whether an integral number is written with a final `.0`. -/
  pointZero : Bool

/-- Lay out the digits of a positive number.  An exponent has a sign and at least two digits. -/
def NumberStyle.layout (style : NumberStyle) (d : Digits) : List Char :=
  let digits := Nat.toDigits 10 d.digits
  let leading := digits.length + d.exponent - 1
  if -4 ≤ leading ∧ leading < style.plainBelow then
    if 0 ≤ d.exponent then
      digits ++ List.replicate d.exponent.toNat '0' ++ (if style.pointZero then ['.', '0'] else [])
    else if 0 ≤ leading then
      digits.take (leading.toNat + 1) ++ '.' :: digits.drop (leading.toNat + 1)
    else
      '0' :: '.' :: List.replicate (-leading - 1).toNat '0' ++ digits
  else
    let fraction := digits.drop 1
    let exponent := Nat.toDigits 10 leading.natAbs
    digits.take 1 ++ (if fraction.isEmpty then [] else '.' :: fraction)
      ++ 'e' :: (if leading < 0 then '-' else '+')
      :: (if exponent.length < 2 then '0' :: exponent else exponent)

/-- The text of a double, given how to choose the digits of a positive value. -/
def NumberStyle.render (style : NumberStyle) (choose : Binary → Digits) (x : Float) : String :=
  match Binary.ofFloat? x with
  | none => if x.isNaN then "nan" else if x < 0 then "-inf" else "inf"
  | some b =>
      let body := if b.magnitude == 0 then style.layout ⟨0, 0⟩ else style.layout (choose b)
      String.ofList (if b.negative then '-' :: body else body)

/-- Numbers in messages and printed values: the fewest digits that read back, positional below
`10 ^ 16`, and visibly no integers. -/
def identifying : NumberStyle := ⟨16, true⟩

/-- Font sizes and evaluated expressions: at most six significant digits. -/
def compact : NumberStyle := ⟨6, false⟩

/-- The shortest text that identifies a double. -/
def toText (x : Float) : String :=
  identifying.render Binary.shortest x

/-- The text of a double to six significant digits. -/
def toCompactText (x : Float) : String :=
  compact.render (·.significant 6) x

end Stylesheet.Decimal
