import Stylesheet.Expression.Compiled
import Stylesheet.Number
import Stylesheet.Rule.Color
import Stylesheet.Rule.Font

/-!
# Rule values

A rule's value is plain, an expression, or a list of branches of which the first one with a true
condition counts.  Branches are values again, to any depth.
-/

namespace Stylesheet

/-- The families of values. -/
inductive Kind where
  | expression
  | boolean
  | number
  | string
  | font
  | color
  | undefined
deriving DecidableEq, Repr

def Kind.text : Kind → String
  | expression => "expression"
  | boolean => "bool"
  | number => "number"
  | string => "string"
  | font => "font"
  | color => "color"
  | undefined => "undefined"

/-- A value that depends on no environment. -/
inductive Plain where
  | boolean (b : Bool)
  | number (n : Number)
  | string (s : String)
  | font (f : Font)
  | color (c : Color)

namespace Plain

def kind : Plain → Kind
  | boolean _ => .boolean
  | number _ => .number
  | string _ => .string
  | font _ => .font
  | color _ => .color

/-- The type of a value as a mismatch names it. -/
def typeName : Plain → String
  | boolean _ => "bool"
  | number (.integer _) => "int"
  | number _ => "float"
  | string _ => "str"
  | font _ => "FontDescriptor"
  | color _ => "ColorDescriptor"

def text : Plain → String
  | boolean b => if b then "True" else "False"
  | number n => n.text
  | string s => s
  | font f => f.text
  | color c => c.text

def same : Plain → Plain → Bool
  | boolean a, boolean b => a == b
  | number a, number b => a.same b
  | string a, string b => a == b
  | font a, font b => a.same b
  | color a, color b => a == b
  | _, _ => false

end Plain

/-- A value under a condition. -/
structure Branch (α : Type) where
  /-- The condition as it is written in the document. -/
  source : String
  condition : Expression
  value : α

/-- The value of a rule. -/
inductive Value where
  /-- No value: null or a sequence. -/
  | undefined
  | plain (value : Plain)
  | expression (e : Expression)
  /-- Branches in the order in which they are tried, under the kind of the first one written. -/
  | conditional (kind : Kind) (branches : List (Branch Value))

namespace Value

def kind : Value → Kind
  | undefined => .undefined
  | plain value => value.kind
  | expression _ => .expression
  | conditional kind _ => kind

def branches : Value → List (Branch Value)
  | conditional _ branches => branches
  | _ => []

def isConditional : Value → Bool
  | conditional _ _ => true
  | _ => false

def isUndefined : Value → Bool
  | undefined => true
  | _ => false

mutual

/-- Whether two values are equal: of one kind, with equal parts and branches in one order. -/
def same : Value → Value → Bool
  | undefined, undefined => true
  | plain a, plain b => a.same b
  | expression a, expression b => a.same b
  | conditional kind branches, conditional kind' branches' =>
      kind == kind' && sameBranches branches branches'
  | _, _ => false

def sameBranches : List (Branch Value) → List (Branch Value) → Bool
  | [], [] => true
  | a :: rest, b :: rest' =>
      a.source == b.source && a.condition.same b.condition && a.value.same b.value
        && sameBranches rest rest'
  | _, _ => false

end

end Value

/-- A named value within a style. -/
structure Rule where
  key : String
  value : Value

def Rule.same (a b : Rule) : Bool :=
  a.key == b.key && a.value.same b.value

end Stylesheet
