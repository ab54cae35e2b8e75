import Stylesheet.Decimal.Numeral
import Stylesheet.Yaml.Error
import Stylesheet.Yaml.Tag

/-!
# Values of scalars

The value of a scalar is made from its tag and its text.  A text that does not fit an explicit tag
has no value.
-/

namespace Stylesheet.Yaml

/-- A scalar as it is written, with its tag. -/
structure TaggedScalar where
  tag : Tag
  text : String
deriving DecidableEq, Repr

namespace TaggedScalar

open Decimal

/-- Separate the sign and the rest of a number without its separators, which cannot be empty. -/
def signed (text : List Char) : Except Fault (Bool × List Char) :=
  let bare := text.filter (· != '_')
  if bare.isEmpty then .error (.unreadable .noDigits)
  else .ok (takeSign bare)

/-- A number that has been read. -/
def number {α : Type} (reading : Option α) : Except Fault α :=
  match reading with
  | some value => .ok value
  | none => .error (.unreadable .notANumber)

/-- The pieces of a text between its colons. -/
def splitColons : List Char → List (List Char)
  | [] => [[]]
  | ':' :: rest => [] :: splitColons rest
  | c :: rest =>
      match splitColons rest with
      | first :: others => (c :: first) :: others
      | [] => [[c]]

/-- Read an integer without its sign: in base two, eight, ten or sixteen as its first characters
say, or in base sixty. -/
def unsignedInteger (text : List Char) : Except Fault Int :=
  match text with
  | [] => .error (.unreadable .noDigits)
  | ['0'] => .ok 0
  | '0' :: 'b' :: digits => number (readInteger? 2 digits)
  | '0' :: 'x' :: digits => number (readInteger? 16 digits)
  | '0' :: _ => number (readInteger? 8 text)
  | _ =>
      if text.contains ':' then do
        let digits ← (splitColons text).mapM fun part => number (readInteger? 10 part)
        .ok (digits.foldl (fun value digit => 60 * value + digit) 0)
      else number (readInteger? 10 text)

/-- Read an integer. -/
def integer (text : List Char) : Except Fault Number := do
  let (negative, unsigned) ← signed text
  let value ← unsignedInteger unsigned
  .ok (.integer (if negative then -value else value))

/-- Add digits in base sixty, the least first, to a sum; `place` is what the first of them counts.
Every place has to have a double, also where the digit is zero. -/
def sumSixties (place : Nat) : List Float → Float → Except Fault Float
  | [], sum => .ok sum
  | digit :: rest, sum =>
      match ofInt? place with
      | some weight => sumSixties (60 * place) rest (sum + digit * weight)
      | none => .error (.unreadable .placeTooLarge)

/-- Read a number with a point, an infinity or a NaN. -/
def real (text : List Char) : Except Fault Number := do
  let (negative, unsigned) ← signed text
  let word := String.ofList (unsigned.map Char.toLower)
  if word == ".inf" then .ok (.real (withSign negative (1.0 / 0.0)))
  else if word == ".nan" then .ok .nan
  else if unsigned.contains ':' then do
    let digits ← (splitColons unsigned).mapM fun part => number (readFloat? part)
    .ok (.real (withSign negative (← sumSixties 1 digits.reverse 0.0)))
  else do
    .ok (.real (withSign negative (← number (readFloat? unsigned))))

/-- Read a truth value. -/
def truth (text : List Char) : Except Fault Bool :=
  match String.ofList (text.map Char.toLower) with
  | "yes" | "true" | "on" => .ok true
  | "no" | "false" | "off" => .ok false
  | _ => .error (.unreadable .notATruthValue)

/-- Check a timestamp. -/
def checkTimestamp (text : List Char) : Except Fault Unit :=
  match Timestamp.ofText? (PlainForm.dropFinalBreak text) with
  | none => .error (.unreadable .notATimestamp)
  | some t => if t.doesExist then .ok () else .error (.unreadable .noSuchTime)

/-- Whether a character is a digit of base 64. -/
def isBase64Digit (c : Char) : Bool :=
  c.isAlphanum || c == '+' || c == '/'

/-- Whether a text holds bytes in base 64: digits in groups of four, where signs of equality fill
the last group and end the text; other characters do not count.  `digits` and `fill` are the
numbers of digits and of signs in the current group. -/
def isBase64 (digits fill : Nat) : List Char → Bool
  | [] => digits == 0
  | c :: rest =>
      if c == '=' then
        if digits < 2 then isBase64 digits fill rest
        else if 4 ≤ digits + fill + 1 then true
        else isBase64 digits (fill + 1) rest
      else if isBase64Digit c then isBase64 ((digits + 1) % 4) 0 rest
      else isBase64 digits fill rest

/-- Check bytes in base 64, which have to be written in ASCII. -/
def checkBinary (text : List Char) : Except Fault Unit :=
  if text.all (·.toNat < 0x80) && isBase64 0 0 text then .ok () else .error .malformed

/-- The value of a scalar.  Timestamps and bytes are checked, but documents have no scalars for
them, nor for collections. -/
def construct (scalar : TaggedScalar) : Except Fault (Option Scalar) :=
  let text := scalar.text.toList
  match scalar.tag with
  | .null => .ok (some .null)
  | .boolean => do .ok (some (.boolean (← truth text)))
  | .integer => do .ok (some (.number (← integer text)))
  | .real => do .ok (some (.number (← real text)))
  | .text => .ok (some (.text scalar.text))
  | .collection => .ok none
  | .timestamp => do
      checkTimestamp text
      .ok none
  | .binary => do
      checkBinary text
      .ok none
  | .merge | .unknown => .error .malformed

end TaggedScalar

/-- A way to make the values of scalars, some of which documents have no scalars for. -/
abbrev Construction : Type :=
  TaggedScalar → Except Fault (Option Scalar)

/-- The scalar of a document for a scalar as it is written.  What is merged is merged under one key,
truth values that are keys keep their texts, and so does what documents have no scalars for. -/
def Construction.convert (construct : Construction) (isKey : Bool) (scalar : TaggedScalar) :
    Except Error Scalar :=
  match scalar.tag, isKey with
  | .merge, _ => .ok (.text mergeKey)
  | .boolean, true => .ok (.text scalar.text)
  | _, _ => match construct scalar with
    | .error fault => .error (.fault fault)
    | .ok value? => .ok (value?.getD (.text scalar.text))

end Stylesheet.Yaml
