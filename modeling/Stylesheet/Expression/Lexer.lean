import Stylesheet.Decimal.Numeral
import Stylesheet.Expression.Token

/-!
# Reading tokens

A source is cut into segments, each the longest piece at its place that is white space, a number,
a dotted name or a symbol.  Tokens are the segments that are not white space.
-/

namespace Stylesheet

open Text

namespace Lexer

/-- The kinds of segments. -/
inductive SegmentClass where
  | blank
  | number
  | name
  | symbol (s : Token.Symbol)
deriving DecidableEq, Repr

/-- A piece of a source. -/
structure Segment where
  kind : SegmentClass
  text : List Char
deriving DecidableEq, Repr

def isNameStart (c : Char) : Bool :=
  c.isAlpha || c == '_'

def isNameRest (c : Char) : Bool :=
  c.isAlphanum || c == '_'

/-- The longest dotted name at the front of a text: parts that start with a letter or underscore
and go on with letters, digits and underscores, joined by single dots.  `inPart` says whether the
character before is inside a part. -/
def nameLength (inPart : Bool) : List Char → Nat
  | [] => 0
  | '.' :: c :: rest =>
      if inPart && isNameStart c then 2 + nameLength true rest else 0
  | c :: rest =>
      if inPart then if isNameRest c then 1 + nameLength true rest else 0
      else if isNameStart c then 1 + nameLength true rest else 0

/-- The length of the number at the front of a text: digits, with a fraction if a digit follows the
point, or a point and digits.  Zero if there is none. -/
def numberLength (text : List Char) : Nat :=
  match (text.takeWhile isDigit).length, text.dropWhile isDigit with
  | whole, '.' :: rest =>
      match (rest.takeWhile isDigit).length with
      | 0 => whole
      | fraction => whole + 1 + fraction
  | whole, _ => whole

/-- The symbol at the front of a text and its length; two-character symbols come first. -/
def symbol? : List Char → Option (Token.Symbol × Nat)
  | '=' :: '=' :: _ => some (.equal, 2)
  | '!' :: '=' :: _ => some (.notEqual, 2)
  | '<' :: '=' :: _ => some (.lessEqual, 2)
  | '>' :: '=' :: _ => some (.greaterEqual, 2)
  | '&' :: '&' :: _ => some (.and, 2)
  | '|' :: '|' :: _ => some (.or, 2)
  | '<' :: _ => some (.less, 1)
  | '>' :: _ => some (.greater, 1)
  | '!' :: _ => some (.not, 1)
  | '+' :: _ => some (.plus, 1)
  | '-' :: _ => some (.minus, 1)
  | '*' :: _ => some (.times, 1)
  | '/' :: _ => some (.divide, 1)
  | '%' :: _ => some (.modulo, 1)
  | '?' :: _ => some (.question, 1)
  | ':' :: _ => some (.colon, 1)
  | '(' :: _ => some (.openParen, 1)
  | ')' :: _ => some (.closeParen, 1)
  | ',' :: _ => some (.comma, 1)
  | _ => none

/-- What stands at the front of a text, and how long it is. -/
def front? (text : List Char) : Option (SegmentClass × Nat) :=
  match (text.takeWhile isBlank).length, numberLength text, nameLength false text with
  | blank + 1, _, _ => some (.blank, blank + 1)
  | 0, number + 1, _ => some (.number, number + 1)
  | 0, 0, name + 1 => some (.name, name + 1)
  | 0, 0, 0 => (symbol? text).map fun (s, length) => (.symbol s, length)

/-- Cut a text into segments, as far as that goes, and give the rest that no segment starts.
`fuel` bounds the number of segments. -/
def segmentsWithin : Nat → List Char → List Segment × List Char
  | 0, text => ([], text)
  | fuel + 1, text =>
      match front? text with
      | none => ([], text)
      | some (kind, length) =>
          let (segments, rest) := segmentsWithin fuel (text.drop length)
          (⟨kind, text.take length⟩ :: segments, rest)

/-- Cut a whole text into segments; a segment has at least one character. -/
def segments (text : List Char) : List Segment × List Char :=
  segmentsWithin text.length text

def numberValue (text : List Char) : Float :=
  match Decimal.takeNumeral? text with
  | some (numeral, _) => numeral.toFloat
  | none => 0.0

/-- A name stands for itself, unless all of it, in whatever case, is one of five words. -/
def nameKind (text : List Char) : Token.Kind × Bool :=
  match String.ofList (text.map Char.toLower) with
  | "true" => (.boolean true, false)
  | "false" => (.boolean false, false)
  | "and" => (.symbol .and, true)
  | "or" => (.symbol .or, true)
  | "not" => (.symbol .not, true)
  | _ => (.name (String.ofList text), false)

/-- The token of a segment at a position; white space has none. -/
def Segment.token? (segment : Segment) (position : Nat) : Option Token :=
  match segment.kind with
  | .blank => none
  | .number => some { kind := .number (numberValue segment.text), position }
  | .symbol s => some { kind := .symbol s, position }
  | .name =>
      let (kind, asWord) := nameKind segment.text
      some { kind, position, asWord }

/-- The tokens of segments that start at a position, and the end token. -/
def tokensFrom (position : Nat) : List Segment → List Token
  | [] => [Token.endAt position]
  | segment :: rest =>
      let tokens := tokensFrom (position + segment.text.length) rest
      match segment.token? position with
      | some token => token :: tokens
      | none => tokens

end Lexer

/-- A character that starts no token. -/
structure LexicalError where
  character : Char
  position : Nat
deriving DecidableEq, Repr

def LexicalError.message (e : LexicalError) : String :=
  s!"Unexpected character '{e.character}' at position {e.position}"

def tokenize (source : String) : Except LexicalError (List Token) :=
  match Lexer.segments source.toList with
  | (segments, []) => .ok (Lexer.tokensFrom 0 segments)
  | (segments, c :: _) => .error ⟨c, (segments.flatMap Lexer.Segment.text).length⟩

end Stylesheet
