import Stylesheet.Decimal.Numeral
import Stylesheet.Number

/-!
# Expressions

The trees that expressions are parsed to.  A tree may also be put together by other means, with
operators that the language does not have, nodes that the evaluator does not know and literals that
are no numbers.
-/

namespace Stylesheet

inductive BinaryOperator where
  | or
  | and
  | equal
  | notEqual
  | less
  | lessEqual
  | greater
  | greaterEqual
  | add
  | subtract
  | multiply
  | divide
  | modulo
  /-- A symbol outside the language. -/
  | unlisted (symbol : String)
deriving DecidableEq, Repr

def BinaryOperator.text : BinaryOperator → String
  | or => "||"
  | and => "&&"
  | equal => "=="
  | notEqual => "!="
  | less => "<"
  | lessEqual => "<="
  | greater => ">"
  | greaterEqual => ">="
  | add => "+"
  | subtract => "-"
  | multiply => "*"
  | divide => "/"
  | modulo => "%"
  | unlisted symbol => symbol

/-- Operators with one operand.  A plus sign is not one: it leaves its operand as it is. -/
inductive UnaryOperator where
  | not
  | negate
  /-- A symbol outside the language. -/
  | unlisted (symbol : String)
deriving DecidableEq, Repr

def UnaryOperator.text : UnaryOperator → String
  | not => "!"
  | negate => "-"
  | unlisted symbol => symbol

/-- Leaves that no expression text has.  They have no value. -/
inductive Foreign where
  /-- A node of a kind that the evaluator does not know. -/
  | node (kind : String)
  /-- An integer beyond all doubles. -/
  | hugeInteger
  /-- A text that is no number. -/
  | text (s : String)
  /-- Another thing that is no number, such as a font or nothing at all.  An evaluation breaks down
  at it. -/
  | other
deriving DecidableEq, Repr

inductive Expr where
  | number (value : Float)
  | boolean (value : Bool)
  /-- A constant, an environment symbol or a variable. -/
  | name (text : String)
  | unary (op : UnaryOperator) (operand : Expr)
  | binary (op : BinaryOperator) (left right : Expr)
  | conditional (condition whenTrue whenFalse : Expr)
  | call (function : String) (arguments : List Expr)
  | foreign (leaf : Foreign)

namespace Expr

/-- The trees right below the root of a tree. -/
def children : Expr → List Expr
  | .unary _ operand => [operand]
  | .binary _ left right => [left, right]
  | .conditional condition whenTrue whenFalse => [condition, whenTrue, whenFalse]
  | .call _ arguments => arguments
  | _ => []

/-- `tree.HasPart depth part`: a tree holds another one, at a number of levels below its root. -/
inductive HasPart : Expr → Nat → Expr → Prop where
  | self (tree : Expr) : HasPart tree 0 tree
  | child {tree child part : Expr} {depth : Nat} (hchild : child ∈ tree.children)
      (hpart : HasPart child depth part) : HasPart tree (depth + 1) part

mutual

/-- Whether two trees are equal, node by node.  A truth value equals the number that stands for
it. -/
def same : Expr → Expr → Bool
  | .number x, .number y => x == y
  | .boolean a, .boolean b => a == b
  | .number x, .boolean b | .boolean b, .number x => x == if b then 1 else 0
  | .name a, .name b => a == b
  | .unary op operand, .unary op' operand' => op == op' && operand.same operand'
  | .binary op left right, .binary op' left' right' =>
      op == op' && left.same left' && right.same right'
  | .conditional condition whenTrue whenFalse, .conditional condition' whenTrue' whenFalse' =>
      condition.same condition' && whenTrue.same whenTrue' && whenFalse.same whenFalse'
  | .call function arguments, .call function' arguments' =>
      function == function' && sameAll arguments arguments'
  | .foreign leaf, .foreign leaf' => leaf == leaf'
  | _, _ => false

def sameAll : List Expr → List Expr → Bool
  | [], [] => true
  | a :: rest, b :: rest' => a.same b && sameAll rest rest'
  | _, _ => false

end

/-- A tree has no leaf that an evaluation breaks down at. -/
def IsSafe (tree : Expr) : Prop :=
  ∀ depth, ¬ tree.HasPart depth (.foreign .other)

end Expr

def Expr.ofNumber (n : Number) : Expr :=
  match n.toFloat? with
  | some x => .number x
  | none => .foreign .hugeInteger

/-- The literal of a text, which counts as the number that it reads as. -/
def Expr.ofString (text : String) : Expr :=
  match Decimal.readFloat? text.toList with
  | some x => .number x
  | none => .foreign (.text text)

end Stylesheet
