/-!
# Timestamps

A scalar can be a date, or a date with a time of day and a distance from universal time.  Only
whether the date and the time exist is of interest: a timestamp stays the text that it is.
-/

namespace Stylesheet.Yaml

structure ZoneOffset where
  hours : Nat
  minutes : Nat
deriving Repr

structure ClockTime where
  hour : Nat
  minute : Nat
  second : Nat
  zone : Option ZoneOffset
deriving Repr

/-- A timestamp as it is written. -/
structure Timestamp where
  year : Nat
  month : Nat
  day : Nat
  /-- Whether month and day have two digits each. -/
  padded : Bool
  clock : Option ClockTime
deriving Repr

namespace Timestamp

def digitsValue (digits : List Char) : Nat :=
  digits.foldl (fun value c => 10 * value + (c.toNat - '0'.toNat)) 0

/-- Take a number with a number of digits between two bounds off the front of a text. -/
def takeNumber? (least most : Nat) (text : List Char) : Option (Nat × List Char) :=
  let digits := (text.take most).takeWhile Char.isDigit
  if digits.length < least then none
  else some (digitsValue digits, text.drop digits.length)

def takeChar? (c : Char) : List Char → Option (List Char)
  | first :: rest => if first == c then some rest else none
  | [] => none

/-- Take the white space or the letter between date and time off the front of a text. -/
def takeJoint? (text : List Char) : Option (List Char) :=
  match text with
  | c :: rest =>
      if c == 'T' || c == 't' then some rest
      else if c == ' ' || c == '\t' then some (rest.dropWhile fun c => c == ' ' || c == '\t')
      else none
  | [] => none

def dropFraction : List Char → List Char
  | '.' :: rest => rest.dropWhile Char.isDigit
  | text => text

def zone? (text : List Char) : Option (Option ZoneOffset) :=
  match text.dropWhile fun c => c == ' ' || c == '\t' with
  | [] => if text.isEmpty then some none else none
  | ['Z'] => some (some ⟨0, 0⟩)
  | sign :: rest =>
      if sign == '-' || sign == '+' then do
        let (hours, rest) ← takeNumber? 1 2 rest
        if rest.isEmpty then some (some ⟨hours, 0⟩)
        else
          let (minutes, rest) ← takeNumber? 2 2 (← takeChar? ':' rest)
          if rest.isEmpty then some (some ⟨hours, minutes⟩) else none
      else none

def clock? (text : List Char) : Option ClockTime := do
  let (hour, rest) ← takeNumber? 1 2 text
  let (minute, rest) ← takeNumber? 2 2 (← takeChar? ':' rest)
  let (second, rest) ← takeNumber? 2 2 (← takeChar? ':' rest)
  return { hour, minute, second, zone := ← zone? (dropFraction rest) }

def ofText? (text : List Char) : Option Timestamp := do
  let (year, afterYear) ← takeNumber? 4 4 text
  let monthText ← takeChar? '-' afterYear
  let (month, afterMonth) ← takeNumber? 1 2 monthText
  let dayText ← takeChar? '-' afterMonth
  let (day, rest) ← takeNumber? 1 2 dayText
  let padded := monthText.length == afterMonth.length + 2 && dayText.length == rest.length + 2
  if rest.isEmpty then some { year, month, day, padded, clock := none }
  else some { year, month, day, padded, clock := some (← clock? (← takeJoint? rest)) }

def isLeapYear (year : Nat) : Bool :=
  year % 4 == 0 && (year % 100 != 0 || year % 400 == 0)

def daysOfMonth (year month : Nat) : Nat :=
  if month == 2 then if isLeapYear year then 29 else 28
  else if month == 4 || month == 6 || month == 9 || month == 11 then 30
  else 31

/-- Whether a time of day exists; a zone is less than a day away. -/
def clockExists (clock : ClockTime) : Bool :=
  clock.hour < 24 && clock.minute < 60 && clock.second < 60
    && (clock.zone.map fun zone => decide (60 * zone.hours + zone.minutes < 24 * 60)).getD true

/-- Whether the date and the time exist; years count from one. -/
def doesExist (t : Timestamp) : Bool :=
  0 < t.year && 0 < t.month && t.month ≤ 12 && 0 < t.day && t.day ≤ daysOfMonth t.year t.month
    && (t.clock.map clockExists).getD true

/-- Whether a plain scalar of this form is a timestamp: a date alone has to be padded. -/
def isPlainForm (t : Timestamp) : Bool :=
  t.clock.isSome || t.padded

end Timestamp

end Stylesheet.Yaml
