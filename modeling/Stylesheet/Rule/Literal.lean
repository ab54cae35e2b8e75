import Stylesheet.Text.Blank

/-!
# Literals

Texts with a meaning of their own: `${…}` holds an expression, and `!!font(…)` and `!!color(…)`
hold arguments.
-/

namespace Stylesheet

namespace Literal

open Text

/-- The marks that start a font and a colour. -/
def fontMark : String := "!!font"

def colorMark : String := "!!color"

/-- Whether a text starts with a mark. -/
def isCallOf (mark text : String) : Bool :=
  mark.toList.isPrefixOf text.toList

def mentions (piece : List Char) : List Char → Bool
  | [] => piece.isEmpty
  | c :: rest => piece.isPrefixOf (c :: rest) || mentions piece rest

/-- The trimmed body of an expression literal. -/
def bodyChars? (text : List Char) : Option (List Char) :=
  match trim text with
  | '$' :: '\x7b' :: inner =>
      if inner.getLast? = some '\x7d' then some (trim inner.dropLast) else none
  | _ => none

/-- The body of an expression literal, without the white space around it. -/
def body? (text : String) : Option String :=
  (bodyChars? text.toList).map String.ofList

/-- The nesting depth after a character: brackets and braces that open it less those that close
it, which may be fewer than none. -/
def depthAfter (depth : Int) (c : Char) : Int :=
  if c = '(' ∨ c = '\x7b' then depth + 1
  else if c = ')' ∨ c = '\x7d' then depth - 1
  else depth

/-- Split a text at its commas outside all brackets, given the depth at its start.  The pieces are
never none: the first goes up to the first such comma. -/
def splitAtDepth (depth : Int) : List Char → List Char × List (List Char)
  | [] => ([], [])
  | c :: rest =>
      if c = ',' ∧ depth = 0 then
        let (first, others) := splitAtDepth depth rest
        ([], first :: others)
      else
        let (first, others) := splitAtDepth (depthAfter depth c) rest
        (c :: first, others)

/-- The trimmed pieces of a text between its commas outside all brackets. -/
def splitArguments (text : List Char) : List (List Char) :=
  let (first, others) := splitAtDepth 0 text
  (first :: others).map trim

/-- Drop the parentheses around a text, if it starts with one and ends with one. -/
def dropParens (text : List Char) : List Char :=
  if text.head? = some '(' ∧ text.getLast? = some ')' then text.tail.dropLast else text

/-- What stands between the parentheses of a call, given the length of its mark. -/
def callBody (markLength : Nat) (text : List Char) : List Char :=
  dropParens (trim ((trim text).drop markLength))

/-- The arguments of a call of a mark, such as `!!font(a, b)`. -/
def argumentChars (mark text : List Char) : List (List Char) :=
  let body := callBody mark.length text
  if (trim body).isEmpty then [] else splitArguments body

def callArguments (mark text : String) : List String :=
  (argumentChars mark.toList text.toList).map String.ofList

def isQuote (c : Char) : Bool :=
  c == '\'' || c == '"'

/-- Drop the quotes around a text, if it stands between two of a kind. -/
def unquoteChars (text : List Char) : List Char :=
  match text with
  | first :: rest =>
      if isQuote first ∧ rest.getLast? = some first then rest.dropLast else text
  | [] => []

def unquote (text : String) : String :=
  String.ofList (unquoteChars text.toList)

end Literal

end Stylesheet
