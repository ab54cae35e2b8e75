import Stylesheet.Yaml.Timestamp

/-!
# Tags

A tag says what a scalar is.  A plain scalar without a tag gets one by the form of its text.
-/

namespace Stylesheet.Yaml

/-- What a scalar is. -/
inductive Tag where
  | null
  | boolean
  | integer
  | real
  | text
  | binary
  | timestamp
  /-- The key that stands for inheritance. -/
  | merge
  /-- A tag for collections, which leaves a scalar the text that it is. -/
  | collection
  /-- A tag that is not read. -/
  | unknown
deriving DecidableEq, Repr

namespace Tag

/-- The names that all known tags start with. -/
def standard : String := "tag:yaml.org,2002:"

def known : List (String × Tag) :=
  [("null", null), ("bool", boolean), ("int", integer), ("float", real), ("str", text),
    ("binary", binary), ("timestamp", timestamp), ("merge", merge), ("map", collection),
    ("seq", collection), ("set", collection), ("omap", collection), ("pairs", collection)].map
    fun (name, tag) => (standard ++ name, tag)

def ofName (name : String) : Tag :=
  (known.lookup name).getD unknown

end Tag

namespace PlainForm

/-- The words that are truth values. -/
def truthWords : List String := [
  "yes", "Yes", "YES", "no", "No", "NO", "true", "True", "TRUE", "false", "False", "FALSE",
  "on", "On", "ON", "off", "Off", "OFF"]

/-- The words for no value. -/
def nullWords : List String := ["~", "null", "Null", "NULL"]

/-- The texts that are kept for uses of their own. -/
def reserved : List String := ["=", "!", "&", "*"]

/-- Whether a character is a decimal digit or a separator between digits. -/
def isSpacedDigit (c : Char) : Bool :=
  c.isDigit || c == '_'

/-- The text behind a sign. -/
def unsigned : List Char → List Char
  | c :: rest => if c == '-' || c == '+' then rest else c :: rest
  | [] => []

/-- Take groups of sixty off the front of a text: colons with a number below sixty each.  The
result also says whether there was one. -/
def dropSixties : List Char → Bool × List Char
  | ':' :: a :: b :: rest =>
      if a.isDigit && a ≤ '5' && b.isDigit then (true, (dropSixties rest).2)
      else if a.isDigit then (true, (dropSixties (b :: rest)).2)
      else (false, ':' :: a :: b :: rest)
  | [':', a] => if a.isDigit then (true, []) else (false, [':', a])
  | text => (false, text)

/-- Whether a text without a sign has the form of an integer: in base two, eight, ten, sixteen or
sixty. -/
def isNatural : List Char → Bool
  | '0' :: 'b' :: rest => !rest.isEmpty && rest.all fun c => c == '0' || c == '1' || c == '_'
  | '0' :: 'x' :: rest =>
      !rest.isEmpty && rest.all fun c =>
        c == '_' || c.isDigit || ('a' ≤ c && c ≤ 'f') || ('A' ≤ c && c ≤ 'F')
  | '0' :: rest => rest.all fun c => c == '_' || ('0' ≤ c && c ≤ '7')
  | c :: rest => c.isDigit && (dropSixties (rest.dropWhile isSpacedDigit)).2.isEmpty
  | [] => false

def isExponent : List Char → Bool
  | mark :: sign :: digits =>
      (mark == 'e' || mark == 'E') && (sign == '-' || sign == '+') && !digits.isEmpty
        && digits.all Char.isDigit
  | text => text.isEmpty

/-- Whether a text without a sign has the form of a number with a point: in base ten or sixty. -/
def isPointed (text : List Char) : Bool :=
  match text with
  | c :: rest =>
      c.isDigit &&
        match dropSixties (rest.dropWhile isSpacedDigit) with
        | (sixties, '.' :: fraction) =>
            let rest := fraction.dropWhile isSpacedDigit
            rest.isEmpty || !sixties && isExponent rest
        | _ => false
  | [] => false

/-- Whether a text has the form of a number that is no integer.  A number that starts with its
point takes no sign. -/
def isReal (text : List Char) : Bool :=
  isPointed (unsigned text)
    || [".inf", ".Inf", ".INF"].contains (String.ofList (unsigned text))
    || [".nan", ".NaN", ".NAN"].contains (String.ofList text)
    || match text with
      | '.' :: c :: rest => c.isDigit && isExponent (rest.dropWhile isSpacedDigit)
      | _ => false

def isTimestamp (text : List Char) : Bool :=
  ((Timestamp.ofText? text).map Timestamp.isPlainForm).getD false

/-- A text without one line feed at its end. -/
def dropFinalBreak (text : List Char) : List Char :=
  if text.getLast? == some '\n' then text.dropLast else text

/-- The tag of a text by its form.  A line feed at its end does not count. -/
def tag (text : List Char) : Tag :=
  let form := dropFinalBreak text
  let word := String.ofList form
  if text.isEmpty || nullWords.contains word then .null
  else if truthWords.contains word then .boolean
  else if isReal form then .real
  else if isNatural (unsigned form) then .integer
  else if word == "<<" then .merge
  else if isTimestamp form then .timestamp
  else if reserved.contains word then .unknown
  else .text

end PlainForm

end Stylesheet.Yaml
