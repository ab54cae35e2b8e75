import Stylesheet.Decimal.Text
import Stylesheet.Environment.Provider
import Stylesheet.Expression.Constants
import Stylesheet.Expression.Function
import Stylesheet.Expression.Syntax
import Stylesheet.Logged
import Stylesheet.Text.Quoted

/-!
# Evaluating expressions

The value of a tree for the answers of a provider.  Truth is a number other than zero, and
comparisons give one or zero.  Every question put to the provider is logged, so the log of an
evaluation says what its value depends on.
-/

namespace Stylesheet

/-- Why a tree has no value. -/
inductive EvaluationError where
  | unknownSymbol (name : String)
  /-- The provider failed to answer. -/
  | unresolvedSymbol (name reason : String)
  | divisionByZero
  | moduloByZero
  | moduloOfNonFinite (value : Float)
  | unknownFunction (name : String)
  | argumentCount (function : String) (count : Nat)
  | functionFault (function : String) (fault : FunctionFault)
  | unknownOperator (symbol : String)
  | unknownUnaryOperator (symbol : String)
  | foreign (leaf : Foreign)
  /-- The tree is nested beyond the budget. -/
  | tooDeep

def Foreign.refusal : Foreign → String
  | node kind => s!"Unknown node type: {kind}"
  | hugeInteger => Number.tooLarge
  | text s => "could not convert string to float: " ++ Text.quoted s
  | other => "not a number"

def EvaluationError.message : EvaluationError → String
  | unknownSymbol name => s!"Unknown symbol: {name}"
  | unresolvedSymbol name reason => s!"Unable to resolve symbol {name}: {reason}"
  | divisionByZero => "Division by zero"
  | moduloByZero => "Modulo by zero"
  | moduloOfNonFinite value => s!"Modulo of non-finite value {Decimal.toText value}"
  | unknownFunction name => s!"Unknown function: {name}"
  | argumentCount function count => s!"Wrong number of arguments for {function}: {count}"
  | functionFault function fault => s!"Error calling {function}: {fault.message}"
  | unknownOperator symbol => s!"Unknown operator: {symbol}"
  | unknownUnaryOperator symbol => s!"Unknown unary operator: {symbol}"
  | foreign leaf => leaf.refusal
  | tooDeep => "expression is nested too deeply"

/-- Whether a number counts as true.  NaN does. -/
def truthy (x : Float) : Bool :=
  x != 0

def ofTruth (b : Bool) : Float :=
  if b then 1 else 0

/-- The remainder of a division that truncates, with the sign of the dividend.  It is exact. -/
def remainder (x y : Float) : Float :=
  match Decimal.Binary.ofFloat? x, Decimal.Binary.ofFloat? y with
  | some a, some b =>
      let exponent := min a.exponent b.exponent
      let dividend := a.magnitude * Nat.pow 2 (a.exponent - exponent).toNat
      let divisor := b.magnitude * Nat.pow 2 (b.exponent - exponent).toNat
      Decimal.withSign a.negative ((Float.ofNat (dividend % divisor)).scaleB exponent)
  | some _, none => if y.isNaN then y else x
  | none, _ => 0.0 / 0.0

def BinaryOperator.apply (op : BinaryOperator) (x y : Float) : Except EvaluationError Float :=
  match op with
  | .or => .ok (ofTruth (truthy x || truthy y))
  | .and => .ok (ofTruth (truthy x && truthy y))
  | .equal => .ok (ofTruth (x == y))
  | .notEqual => .ok (ofTruth (x != y))
  | .less => .ok (ofTruth (x < y))
  | .lessEqual => .ok (ofTruth (x ≤ y))
  | .greater => .ok (ofTruth (x > y))
  | .greaterEqual => .ok (ofTruth (x ≥ y))
  | .add => .ok (x + y)
  | .subtract => .ok (x - y)
  | .multiply => .ok (x * y)
  | .divide => if y == 0 then .error .divisionByZero else .ok (x / y)
  | .modulo =>
      if y == 0 then .error .moduloByZero
      else if !Decimal.isFinite x then .error (.moduloOfNonFinite x)
      else .ok (remainder x y)
  | .unlisted symbol => .error (.unknownOperator symbol)

def UnaryOperator.apply (op : UnaryOperator) (x : Float) : Except EvaluationError Float :=
  match op with
  | .not => .ok (ofTruth (!truthy x))
  | .negate => .ok (-x)
  | .unlisted symbol => .error (.unknownUnaryOperator symbol)

/-- An evaluation: a value or an error, and the questions that were asked. -/
abbrev Evaluation (α : Type) : Type :=
  Logged Query EvaluationError α

/-- Ask the provider; a failure is one of the named symbol. -/
def Provider.ask (provider : Provider) (query : Query) (name : String) :
    Evaluation (Option Float) := do
  Logged.note query
  match provider.answer query with
  | .ok answer => return answer
  | .error reason => Logged.fail (.unresolvedSymbol name reason)

/-- The value of a name: constants come first, then environment symbols, then variables. -/
def Provider.valueOf (provider : Provider) (name : String) : Evaluation Float :=
  match constant? name with
  | some value => return value
  | none => do
      match ← provider.ask (.ofName name) name with
      | some value => return value
      | none => Logged.fail (.unknownSymbol name)

/-- Spend one unit of a nesting budget and go on with the rest. -/
def nested {α : Type} (budget : Nat) (inner : Nat → Evaluation α) : Evaluation α :=
  match budget with
  | 0 => Logged.fail .tooDeep
  | rest + 1 => inner rest

namespace Expr

mutual

/-- The value of a tree that is nested no deeper than a budget. -/
def evaluateWithin (provider : Provider) (budget : Nat) : Expr → Evaluation Float
  | .number value => nested budget fun _ => return value
  | .boolean value => nested budget fun _ => return ofTruth value
  | .name text => nested budget fun _ => provider.valueOf text
  | .unary op operand => nested budget fun budget => do
      let x ← operand.evaluateWithin provider budget
      Logged.ofExcept (op.apply x)
  | .binary .and left right => nested budget fun budget => do
      if truthy (← left.evaluateWithin provider budget) then
        return ofTruth (truthy (← right.evaluateWithin provider budget))
      else
        return 0
  | .binary .or left right => nested budget fun budget => do
      if truthy (← left.evaluateWithin provider budget) then
        return 1
      else
        return ofTruth (truthy (← right.evaluateWithin provider budget))
  | .binary op left right => nested budget fun budget => do
      let x ← left.evaluateWithin provider budget
      let y ← right.evaluateWithin provider budget
      Logged.ofExcept (op.apply x y)
  | .conditional condition whenTrue whenFalse => nested budget fun budget => do
      if truthy (← condition.evaluateWithin provider budget) then
        whenTrue.evaluateWithin provider budget
      else
        whenFalse.evaluateWithin provider budget
  | .call function arguments => nested budget fun budget =>
      match Function.ofName? function with
      | none => Logged.fail (.unknownFunction function)
      | some f =>
          if f.accepts arguments.length then do
            let values ← evaluateAllWithin provider budget arguments
            match f.apply values with
            | .ok value => return value
            | .error fault => Logged.fail (.functionFault function fault)
          else
            Logged.fail (.argumentCount function arguments.length)
  | .foreign leaf => nested budget fun _ => Logged.fail (.foreign leaf)

/-- The values of arguments, from left to right. -/
def evaluateAllWithin (provider : Provider) (budget : Nat) :
    List Expr → Evaluation (List Float)
  | [] => return []
  | argument :: rest => do
      let value ← argument.evaluateWithin provider budget
      let values ← evaluateAllWithin provider budget rest
      return value :: values

end

/-- The nesting budget of an evaluation, counted in levels of the tree. -/
def depthLimit : Nat := 480

def evaluate (provider : Provider) (tree : Expr) : Evaluation Float :=
  tree.evaluateWithin provider depthLimit

/-- The question whose answer a tree has as its value, if the value is a NaN: no computation came
between the two.  A choice between two trees hands on what it chooses, and so does the least or the
greatest of some arguments, which is a NaN just when the first of them is. -/
def origin? (provider : Provider) : Nat → Expr → Option Query
  | 0, _ => none
  | _ + 1, .name text => if (constant? text).isSome then none else some (.ofName text)
  | budget + 1, .conditional condition whenTrue whenFalse =>
      match (condition.evaluateWithin provider budget).outcome with
      | .ok x =>
          if truthy x then origin? provider budget whenTrue else origin? provider budget whenFalse
      | .error _ => none
  | budget + 1, .call function (first :: _) =>
      match Function.ofName? function with
      | some .min | some .max => origin? provider budget first
      | _ => none
  | _, _ => none

end Expr

end Stylesheet
