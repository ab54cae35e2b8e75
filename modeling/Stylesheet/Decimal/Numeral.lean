import Stylesheet.Decimal.Binary
import Stylesheet.Text.Blank
import Stylesheet.Text.DecimalDigit

/-!
# Reading numerals

A numeral is an optional sign, digits with an optional fraction, or a point and digits, and an
optional exponent.  Digits may be of any script.
-/

namespace Stylesheet.Decimal

open Stylesheet.Text

/-- The parts of a numeral. -/
structure Numeral where
  negative : Bool
  whole : List Char
  fraction : List Char
  exponent : Int

/-- The double nearest to a numeral. -/
def Numeral.toFloat (numeral : Numeral) : Float :=
  withSign numeral.negative <|
    nearest (digitsValue (numeral.whole ++ numeral.fraction))
      (numeral.exponent - numeral.fraction.length)

/-- Take a sign off the front of a text; without one the number is positive. -/
def takeSign : List Char → Bool × List Char
  | '-' :: rest => (true, rest)
  | '+' :: rest => (false, rest)
  | text => (false, text)

/-- Take the digits and the fraction of a numeral off the front of a text. -/
def takeDigits? (text : List Char) : Option ((List Char × List Char) × List Char) :=
  match text.takeWhile isDigit, text.dropWhile isDigit with
  | [], '.' :: rest =>
      match rest.takeWhile isDigit with
      | [] => none
      | fraction => some (([], fraction), rest.dropWhile isDigit)
  | [], _ => none
  | whole, '.' :: rest => some ((whole, rest.takeWhile isDigit), rest.dropWhile isDigit)
  | whole, rest => some ((whole, []), rest)

/-- Take an exponent off the front of a text.  A mark without digits after it is no exponent. -/
def takeExponent (text : List Char) : Int × List Char :=
  match text with
  | mark :: rest =>
      if mark == 'e' || mark == 'E' then
        let (negative, digits) := takeSign rest
        match digits.takeWhile isDigit with
        | [] => (0, text)
        | run =>
            let value : Int := digitsValue run
            (if negative then -value else value, digits.dropWhile isDigit)
      else (0, text)
  | [] => (0, [])

/-- Take the longest numeral off the front of a text. -/
def takeNumeral? (text : List Char) : Option (Numeral × List Char) :=
  let (negative, unsigned) := takeSign text
  match takeDigits? unsigned with
  | none => none
  | some ((whole, fraction), rest) =>
      let (exponent, rest) := takeExponent rest
      some (⟨negative, whole, fraction, exponent⟩, rest)

/-- White space that may surround a number: all but the information separators. -/
def isPadding (c : Char) : Bool :=
  isBlank c && !(0x1C ≤ c.toNat && c.toNat ≤ 0x1F)

def trimPadding (text : List Char) : List Char :=
  ((text.dropWhile isPadding).reverse.dropWhile isPadding).reverse

/-- Drop the underscores of a text if each stands between two digits; `afterDigit` says whether
the character before is a digit. -/
def dropSeparators? (afterDigit : Bool) : List Char → Option (List Char)
  | [] => some []
  | '_' :: rest =>
      if afterDigit && (rest.head?.map isDigit).getD false then dropSeparators? false rest
      else none
  | c :: rest => (dropSeparators? (isDigit c) rest).map (c :: ·)

/-- Read a whole text as a number: a numeral, an infinity or NaN, with padding around it and
underscores between digits. -/
def readFloat? (text : List Char) : Option Float := do
  let bare ← dropSeparators? false (trimPadding text)
  match takeNumeral? bare with
  | some (numeral, []) => some numeral.toFloat
  | some _ => none
  | none =>
      let (negative, word) := takeSign bare
      match String.ofList (word.map Char.toLower) with
      | "inf" | "infinity" => some (withSign negative (1.0 / 0.0))
      | "nan" => some (0.0 / 0.0)
      | _ => none

def digitIn? (base : Nat) (c : Char) : Option Nat :=
  let value? :=
    if 'a' ≤ c ∧ c ≤ 'f' then some (c.toNat - 'a'.toNat + 10)
    else if 'A' ≤ c ∧ c ≤ 'F' then some (c.toNat - 'A'.toNat + 10)
    else digitValue? c
  value?.filter (· < base)

def naturalIn? (base : Nat) (text : List Char) : Option Nat :=
  text.foldlM (fun value c => (digitIn? base c).map (base * value + ·)) 0

/-- The mark that may follow a zero in front of the digits of a base. -/
def baseMark? : Nat → Option Char
  | 2 => some 'b'
  | 8 => some 'o'
  | 16 => some 'x'
  | _ => none

/-- The longest run of digits that is read as an integer in base ten. -/
def longestInteger : Nat := 4300

/-- Read a whole text as an integer in a base, with padding and a sign.  The digits may follow a
zero and the mark of the base. -/
def readInteger? (base : Nat) (text : List Char) : Option Int := do
  let (negative, unsigned) := takeSign (trimPadding text)
  let digits := match unsigned with
    | '0' :: mark :: rest => if some mark.toLower == baseMark? base then rest else unsigned
    | _ => unsigned
  if digits.isEmpty || base == 10 && longestInteger < digits.length then none
  let value ← naturalIn? base digits
  some (if negative then -value else value)

end Stylesheet.Decimal
