import Stylesheet.Text.Blank
import Stylesheet.Text.Uppercase

/-!
# Colours

A colour is written in hexadecimal, with three, four, six or eight digits, after a `#`, a `0x` or
nothing.  It is kept as six or eight digits in upper case.
-/

namespace Stylesheet

/-- A colour by its hexadecimal digits. -/
structure Color where
  hex : String
deriving DecidableEq, Repr

namespace Color

def isHexDigit (c : Char) : Bool :=
  ('0' ≤ c && c ≤ '9') || ('A' ≤ c && c ≤ 'F')

/-- Drop the mark that may stand before the digits. -/
def dropMark : List Char → List Char
  | '#' :: rest => rest
  | '0' :: 'X' :: rest => rest
  | text => text

/-- Write every digit of the short form twice; other texts stay. -/
def expand (digits : List Char) : List Char :=
  if digits.length = 3 ∨ digits.length = 4 then digits.flatMap fun c => [c, c] else digits

def digits? (text : List Char) : Option (List Char) :=
  let digits := dropMark (Text.upper (Text.trim text))
  let full := expand digits
  if digits.all isHexDigit ∧ (full.length = 6 ∨ full.length = 8) then some full else none

def ofText? (text : String) : Option Color :=
  (digits? text.toList).map fun digits => ⟨String.ofList digits⟩

def refusal (text : String) : String :=
  s!"Invalid hex color '{text}'"

def black : Color := ⟨"000000"⟩

/-- The colour with a mark. -/
def text (c : Color) : String :=
  "#" ++ c.hex

def hexValue (c : Char) : Nat :=
  if c.toNat < 'A'.toNat then c.toNat - '0'.toNat else c.toNat - 'A'.toNat + 10

/-- The numbers written by digits two by two. -/
def bytes : List Char → List Nat
  | high :: low :: rest => (16 * hexValue high + hexValue low) :: bytes rest
  | _ => []

/-- Red, green, blue and alpha from zero to one.  Without alpha digits a colour is opaque. -/
def components (c : Color) : List Float :=
  let all := bytes c.hex.toList
  (if all.length < 4 then all ++ [255] else all).map fun byte => Float.ofNat byte / 255

end Color

end Stylesheet
