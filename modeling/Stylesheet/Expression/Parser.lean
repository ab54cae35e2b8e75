import Stylesheet.Expression.Syntax
import Stylesheet.Expression.Token

/-!
# Parsing expressions

    expression := or ['?' expression ':' expression]
    or := and {'||' and}
    and := comparison {'&&' comparison}
    comparison := sum {('==' | '!=' | '<' | '<=' | '>' | '>=') sum}
    sum := product {('+' | '-') product}
    product := unary {('*' | '/' | '%') unary}
    unary := ('!' | '-' | '+') unary | primary
    primary := number | boolean | name | name '(' [expression {',' expression}] ')'
             | '(' expression ')'

Every construct takes one unit of a nesting budget for itself and hands the rest on, so parsing
ends, and a source that is nested beyond the budget is told apart from one that is wrong.
-/

namespace Stylesheet

/-- What is wrong with a token. -/
inductive SyntaxFault where
  /-- There is no expression at all. -/
  | empty
  /-- Nothing that the grammar allows here starts with the token. -/
  | unexpected
  /-- A conditional expression lacks its colon. -/
  | missingColon
  /-- An expression in parentheses is not closed. -/
  | unclosedGroup
  /-- A list of arguments is not closed. -/
  | unclosedArguments
deriving DecidableEq, Repr

/-- A fault, with the tokens that were not read: the first of them is the one at fault. -/
structure SyntaxError where
  fault : SyntaxFault
  unread : List Token

def SyntaxError.token (e : SyntaxError) : Token :=
  e.unread.headD (Token.endAt 0)

def SyntaxError.message (e : SyntaxError) : String :=
  let what := match e.fault with
    | .empty => "Empty expression"
    | .unexpected => s!"Unexpected token '{e.token.text}'"
    | .missingColon => "Expected ':' in conditional expression"
    | .unclosedGroup => "Expected ')' after expression"
    | .unclosedArguments => "Expected ')' after arguments"
  s!"{what} at position {e.token.position}"

namespace Parser

/-- How parsing can fail. -/
inductive Failure where
  | malformed (e : SyntaxError)
  /-- The nesting budget is used up. -/
  | tooDeep

/-- A parser takes tokens off the front of a list. -/
abbrev Parse (α : Type) : Type :=
  List Token → Except Failure (α × List Token)

/-- Take a symbol that may stand at the front. -/
def accept? (symbol : Token.Symbol) : List Token → Option (List Token)
  | ⟨.symbol s, _, _⟩ :: rest => if s = symbol then some rest else none
  | _ => none

/-- Take a symbol that has to stand at the front. -/
def expect (symbol : Token.Symbol) (fault : SyntaxFault) (tokens : List Token) :
    Except Failure (List Token) :=
  match accept? symbol tokens with
  | some rest => .ok rest
  | none => .error (.malformed ⟨fault, tokens⟩)

/-- The symbols that join operands at one level of precedence, with their operators. -/
abbrev Level : Type :=
  List (Token.Symbol × BinaryOperator)

/-- The levels of precedence, loosest first. -/
def levels : List Level := [
  [(.or, .or)],
  [(.and, .and)],
  [(.equal, .equal), (.notEqual, .notEqual), (.less, .less), (.lessEqual, .lessEqual),
    (.greater, .greater), (.greaterEqual, .greaterEqual)],
  [(.plus, .add), (.minus, .subtract)],
  [(.times, .multiply), (.divide, .divide), (.modulo, .modulo)]]

def operator? (level : Level) : List Token → Option (BinaryOperator × List Token)
  | ⟨.symbol s, _, _⟩ :: rest => (level.lookup s).map (·, rest)
  | _ => none

/-- Extend an expression by operators of a level and their right operands, joined to the left.
Each round takes a token, so `fuel` suffices if it is the number of tokens. -/
def chain (level : Level) (operand : Parse Expr) : Nat → Expr → Parse Expr
  | 0, left, tokens => .ok (left, tokens)
  | fuel + 1, left, tokens =>
      match operator? level tokens with
      | none => .ok (left, tokens)
      | some (op, rest) => do
          let (right, rest) ← operand rest
          chain level operand fuel (.binary op left right) rest

/-- Extend a list of arguments by further ones behind commas. -/
def furtherArguments (argument : Parse Expr) : Nat → List Expr → Parse (List Expr)
  | 0, arguments, tokens => .ok (arguments, tokens)
  | fuel + 1, arguments, tokens =>
      match accept? .comma tokens with
      | none => .ok (arguments, tokens)
      | some rest => do
          let (next, rest) ← argument rest
          furtherArguments argument fuel (arguments ++ [next]) rest

mutual

/-- An expression: a chain of operators, perhaps the condition of two others. -/
def expression : Nat → Parse Expr
  | 0, _ => .error .tooDeep
  | budget + 1, tokens => do
      let (condition, rest) ← operators budget levels tokens
      match accept? .question rest with
      | none => .ok (condition, rest)
      | some rest =>
          let (whenTrue, rest) ← expression budget rest
          let rest ← expect .colon .missingColon rest
          let (whenFalse, rest) ← expression budget rest
          .ok (.conditional condition whenTrue whenFalse, rest)

/-- Operands joined by the operators of the given levels. -/
def operators : Nat → List Level → Parse Expr
  | 0, _, _ => .error .tooDeep
  | budget + 1, [], tokens => unary budget tokens
  | budget + 1, level :: tighter, tokens => do
      let (left, rest) ← operators budget tighter tokens
      chain level (operators budget tighter) rest.length left rest

/-- Signs in front of a primary expression. -/
def unary : Nat → Parse Expr
  | 0, _ => .error .tooDeep
  | budget + 1, tokens =>
      match tokens with
      | ⟨.symbol .not, _, _⟩ :: rest => do
          let (operand, rest) ← unary budget rest
          .ok (.unary .not operand, rest)
      | ⟨.symbol .minus, _, _⟩ :: rest => do
          let (operand, rest) ← unary budget rest
          .ok (.unary .negate operand, rest)
      | ⟨.symbol .plus, _, _⟩ :: rest => unary budget rest
      | _ => primary budget tokens

/-- A literal, a name, a call or an expression in parentheses. -/
def primary : Nat → Parse Expr
  | 0, _ => .error .tooDeep
  | budget + 1, tokens =>
      match tokens with
      | ⟨.number value, _, _⟩ :: rest => .ok (.number value, rest)
      | ⟨.boolean value, _, _⟩ :: rest => .ok (.boolean value, rest)
      | ⟨.name text, _, _⟩ :: rest =>
          match accept? .openParen rest with
          | none => .ok (.name text, rest)
          | some rest => do
              let (arguments, rest) ← arguments budget rest
              .ok (.call text arguments, rest)
      | ⟨.symbol .openParen, _, _⟩ :: rest => do
          let (inner, rest) ← expression budget rest
          let rest ← expect .closeParen .unclosedGroup rest
          .ok (inner, rest)
      | _ => .error (.malformed ⟨.unexpected, tokens⟩)

/-- The arguments of a call, after its opening parenthesis. -/
def arguments : Nat → Parse (List Expr)
  | 0, _ => .error .tooDeep
  | budget + 1, tokens =>
      match accept? .closeParen tokens with
      | some rest => .ok ([], rest)
      | none => do
          let (first, rest) ← expression budget tokens
          let (arguments, rest) ← furtherArguments (expression budget) rest.length [first] rest
          let rest ← expect .closeParen .unclosedArguments rest
          .ok (arguments, rest)

end

/-- Parse a whole list of tokens, up to its end token, within a nesting budget. -/
def parseWithin (budget : Nat) (tokens : List Token) : Except Failure Expr :=
  match tokens with
  | [] | ⟨.finish, _, _⟩ :: _ => .error (.malformed ⟨.empty, tokens⟩)
  | _ => do
      let (tree, rest) ← expression budget tokens
      match rest with
      | [] | ⟨.finish, _, _⟩ :: _ => .ok tree
      | _ => .error (.malformed ⟨.unexpected, rest⟩)

/-- The nesting budget of a source.  A pair of parentheses takes nine units, a call ten, a sign or
the branch of a conditional one. -/
def nestingLimit : Nat := 960

end Parser

def Expr.ofTokens (tokens : List Token) : Except Parser.Failure Expr :=
  Parser.parseWithin Parser.nestingLimit tokens

end Stylesheet
