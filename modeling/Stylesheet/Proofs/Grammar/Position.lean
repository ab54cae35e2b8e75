import Stylesheet.Proofs.Grammar.Recognition

/-!
# The parser with a position

The parser drops the tokens that it takes.  Here it keeps them all and counts: it walks over the
tokens, looks at the one at its position, or at the last one should it be behind the end, and moves
on by one token at a time.  A walk notes where it looks, and from where to where each of its
routines takes it.
-/

namespace Stylesheet

def Token.isSymbol (token : Token) (symbol : Token.Symbol) : Bool :=
  match token.kind with
  | .symbol s => s = symbol
  | _ => false

/-- The operator of a level that a token stands for. -/
def Token.operator? (token : Token) (level : Parser.Level) : Option BinaryOperator :=
  match token.kind with
  | .symbol s => level.lookup s
  | _ => none

namespace Walk

/-- The routines that call each other. -/
inductive Routine where
  | expression
  | operators (levels : List Parser.Level)
  | unary
  | primary
  | arguments

/-- What a walk notes. -/
inductive Mark where
  /-- A look from a position at the token with an index. -/
  | look (position index : Nat)
  /-- A routine that was called at one position and has returned at another. -/
  | returned (routine : Routine) (start stop : Nat)

/-- Why a walk stops short. -/
inductive Halt where
  | malformed (fault : SyntaxFault) (token : Token)
  /-- The nesting budget is used up. -/
  | tooDeep
  /-- A loop has made as many rounds as there are tokens, and has not come to its end. -/
  | endless

/-- How a walk ends, where, and what it has noted until then. -/
structure Run (α : Type) where
  outcome : Except Halt α
  position : Nat
  marks : List Mark

end Walk

open Walk in
/-- A way to walk on from any position. -/
def Walk (α : Type) : Type :=
  Nat → Run α

namespace Walk

open Stylesheet.Parser (Level levels)

variable {α β : Type}

/-- Walk on from where a walk has ended, unless it stopped short. -/
def bind (walk : Walk α) (next : α → Walk β) : Walk β := fun start =>
  let run := walk start
  match run.outcome with
  | .error halt => ⟨.error halt, run.position, run.marks⟩
  | .ok a =>
      let further := next a run.position
      ⟨further.outcome, further.position, run.marks ++ further.marks⟩

instance : Monad Walk where
  pure a := fun position => ⟨.ok a, position, []⟩
  bind := bind

def halt (why : Halt) : Walk α := fun position =>
  ⟨.error why, position, []⟩

def advance : Walk Unit := fun position =>
  ⟨.ok (), position + 1, []⟩

/-- Note where a routine takes the walk, if it returns. -/
def call (routine : Routine) (body : Walk α) : Walk α := fun start =>
  let run := body start
  match run.outcome with
  | .error why => ⟨.error why, run.position, run.marks⟩
  | .ok a => ⟨.ok a, run.position, run.marks ++ [.returned routine start run.position]⟩

section Tokens

variable (tokens : List Token)

/-- Look at the token at the position; behind the end, at the last one. -/
def look : Walk Token := fun position =>
  let index := min position (tokens.length - 1)
  ⟨.ok (tokens.getD index (Token.endAt 0)), position, [.look position index]⟩

def take : Walk Token := do
  let token ← look tokens
  advance
  return token

def accept (symbol : Token.Symbol) : Walk Bool := do
  if (← look tokens).isSymbol symbol then
    advance
    return true
  else
    return false

def expect (symbol : Token.Symbol) (fault : SyntaxFault) : Walk Unit := do
  if (← look tokens).isSymbol symbol then
    let _ ← take tokens
    return ()
  else
    halt (.malformed fault (← look tokens))

/-- Extend an expression as long as an operator of a level comes next. -/
def chain (level : Level) (operand : Walk Expr) : Nat → Expr → Walk Expr
  | 0, _ => halt .endless
  | fuel + 1, left => do
      match (← look tokens).operator? level with
      | none => return left
      | some op =>
          let _ ← take tokens
          let right ← operand
          chain level operand fuel (.binary op left right)

/-- Extend a list of arguments as long as a comma comes next. -/
def furtherArguments (argument : Walk Expr) : Nat → List Expr → Walk (List Expr)
  | 0, _ => halt .endless
  | fuel + 1, known => do
      if ← accept tokens .comma then
        let next ← argument
        furtherArguments argument fuel (known ++ [next])
      else
        return known

mutual

def expression : Nat → Walk Expr
  | 0 => halt .tooDeep
  | budget + 1 => call .expression do
      let condition ← operators budget levels
      if ← accept tokens .question then
        let whenTrue ← expression budget
        expect tokens .colon .missingColon
        let whenFalse ← expression budget
        return .conditional condition whenTrue whenFalse
      else
        return condition

def operators : Nat → List Level → Walk Expr
  | 0, _ => halt .tooDeep
  | budget + 1, [] => call (.operators []) (unary budget)
  | budget + 1, level :: tighter => call (.operators (level :: tighter)) do
      let left ← operators budget tighter
      chain tokens level (operators budget tighter) tokens.length left

def unary : Nat → Walk Expr
  | 0 => halt .tooDeep
  | budget + 1 => call .unary do
      if ← accept tokens .not then
        return .unary .not (← unary budget)
      else if ← accept tokens .minus then
        return .unary .negate (← unary budget)
      else if ← accept tokens .plus then
        unary budget
      else
        primary budget

def primary : Nat → Walk Expr
  | 0 => halt .tooDeep
  | budget + 1 => call .primary do
      let token ← take tokens
      match token.kind with
      | .number value => return .number value
      | .boolean value => return .boolean value
      | .name text =>
          if ← accept tokens .openParen then
            return .call text (← arguments budget)
          else
            return .name text
      | .symbol .openParen =>
          let inner ← expression budget
          expect tokens .closeParen .unclosedGroup
          return inner
      | _ => halt (.malformed .unexpected token)

def arguments : Nat → Walk (List Expr)
  | 0 => halt .tooDeep
  | budget + 1 => call .arguments do
      if ← accept tokens .closeParen then
        return []
      else
        let first ← expression budget
        let all ← furtherArguments tokens (expression budget) tokens.length [first]
        expect tokens .closeParen .unclosedArguments
        return all

end

/-- Walk over a whole list of tokens, up to its end token. -/
def parse (budget : Nat) : Walk Expr := do
  if (← look tokens).isFinish then
    halt (.malformed .empty (← look tokens))
  else
    let tree ← expression tokens budget
    let trailing ← look tokens
    if trailing.isFinish then
      return tree
    else
      halt (.malformed .unexpected trailing)

end Tokens

end Walk

end Stylesheet
