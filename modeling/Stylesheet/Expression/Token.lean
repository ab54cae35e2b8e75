import Stylesheet.Decimal.Text
import Stylesheet.Text.Quoted

/-!
# Tokens

An expression is read as a list of tokens that ends with an end token.
-/

namespace Stylesheet

namespace Token

inductive Symbol where
  | equal
  | notEqual
  | less
  | lessEqual
  | greater
  | greaterEqual
  | and
  | or
  | not
  | plus
  | minus
  | times
  | divide
  | modulo
  | question
  | colon
  | openParen
  | closeParen
  | comma
deriving DecidableEq, Repr

/-- How a symbol is written.  Three of them can also be spelled as words. -/
def Symbol.text : Symbol → String
  | equal => "=="
  | notEqual => "!="
  | less => "<"
  | lessEqual => "<="
  | greater => ">"
  | greaterEqual => ">="
  | and => "&&"
  | or => "||"
  | not => "!"
  | plus => "+"
  | minus => "-"
  | times => "*"
  | divide => "/"
  | modulo => "%"
  | question => "?"
  | colon => ":"
  | openParen => "("
  | closeParen => ")"
  | comma => ","

/-- The name of a symbol in the listing of a token. -/
def Symbol.label : Symbol → String
  | equal => "EQ"
  | notEqual => "NEQ"
  | less => "LT"
  | lessEqual => "LTE"
  | greater => "GT"
  | greaterEqual => "GTE"
  | and => "AND"
  | or => "OR"
  | not => "NOT"
  | plus => "PLUS"
  | minus => "MINUS"
  | times => "MULTIPLY"
  | divide => "DIVIDE"
  | modulo => "MODULO"
  | question => "QUESTION"
  | colon => "COLON"
  | openParen => "LPAREN"
  | closeParen => "RPAREN"
  | comma => "COMMA"

/-- The word for a symbol that has one. -/
def Symbol.word? : Symbol → Option String
  | and => some "and"
  | or => some "or"
  | not => some "not"
  | _ => none

/-- What a token is, apart from its place and its spelling. -/
inductive Kind where
  | number (value : Float)
  | boolean (value : Bool)
  | name (text : String)
  | symbol (s : Symbol)
  /-- The end of the source. -/
  | finish

end Token

/-- A token and the offset, in characters, that it starts at. -/
structure Token where
  kind : Token.Kind
  position : Nat
  /-- Whether a symbol is spelled as a word. -/
  asWord : Bool := false

namespace Token

/-- The token at the end of a source of a given length. -/
def endAt (position : Nat) : Token :=
  { kind := .finish, position }

/-- The value of a token as messages show it.  The end shows as `None`. -/
def text (token : Token) : String :=
  match token.kind with
  | .number x => Decimal.toText x
  | .boolean b => if b then "True" else "False"
  | .name s => s
  | .symbol s => if token.asWord then s.word?.getD s.text else s.text
  | .finish => "None"

def label (token : Token) : String :=
  match token.kind with
  | .number _ => "NUMBER"
  | .boolean _ => "BOOLEAN"
  | .name _ => "IDENTIFIER"
  | .symbol s => s.label
  | .finish => "EOF"

/-- The value of a token, in quotes if it is text. -/
def valueText (token : Token) : String :=
  match token.kind with
  | .name _ | .symbol _ => Text.quoted token.text
  | _ => token.text

def describe (token : Token) : String :=
  s!"Token({token.label}, {token.valueText}, pos={token.position})"

end Token

end Stylesheet
