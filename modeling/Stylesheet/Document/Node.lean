import Stylesheet.Decimal.Numeral
import Stylesheet.Number
import Stylesheet.Text.Quoted

/-!
# Document trees

A document is a tree of scalars, sequences and mappings.  Mappings keep their pairs in order, and
keys can be any nodes.
-/

namespace Stylesheet

/-- A single value in a document. -/
inductive Scalar where
  | null
  | boolean (b : Bool)
  | number (n : Number)
  | text (s : String)

/-- A document tree. -/
inductive Node where
  | scalar (value : Scalar)
  | sequence (items : List Node)
  | mapping (pairs : List (Node × Node))

def Scalar.display : Scalar → String
  | null => "None"
  | boolean b => if b then "True" else "False"
  | number n => n.text
  | text s => s

/-- A scalar inside a structural description: as messages print it, with texts in quotes. -/
def Scalar.describe : Scalar → String
  | text s => Text.quoted s
  | scalar => scalar.display

/-- Whether two scalars are the same value of the same kind.  An integer and a double are of
different kinds. -/
def Scalar.same : Scalar → Scalar → Bool
  | null, null => true
  | boolean a, boolean b => a == b
  | text a, text b => a == b
  | number (.integer a), number (.integer b) => a == b
  | number (.integer _), number _ | number _, number (.integer _) => false
  | number a, number b => a.same b
  | _, _ => false

/-- A list in parentheses; one of a single item ends in a comma. -/
def describeTuple : List String → String
  | [item] => "(" ++ item ++ ",)"
  | items => "(" ++ ", ".intercalate items ++ ")"

mutual

/-- A description of the structure of a node. -/
def Node.describe : Node → String
  | .scalar value => "ScalarNode(value=" ++ value.describe ++ ")"
  | .sequence items => "SequenceNode(items=" ++ describeTuple (Node.describeItems items) ++ ")"
  | .mapping pairs => "MappingNode(pairs=" ++ describeTuple (Node.describePairs pairs) ++ ")"

def Node.describeItems : List Node → List String
  | [] => []
  | item :: rest => item.describe :: Node.describeItems rest

def Node.describePairs : List (Node × Node) → List String
  | [] => []
  | (key, value) :: rest =>
      describeTuple [key.describe, value.describe] :: Node.describePairs rest

end

/-- Whether a scalar can be written in digits.  An integer of too many of them cannot. -/
def Scalar.isShowable : Scalar → Bool
  | number (.integer n) => n.natAbs < Nat.pow 10 Decimal.longestInteger
  | _ => true

mutual

/-- Whether a node holds no scalar that cannot be written. -/
def Node.isWritable : Node → Bool
  | .scalar value => value.isShowable
  | .sequence items => Node.areWritable items
  | .mapping pairs => Node.areWritablePairs pairs

def Node.areWritable : List Node → Bool
  | [] => true
  | item :: rest => item.isWritable && Node.areWritable rest

def Node.areWritablePairs : List (Node × Node) → Bool
  | [] => true
  | (key, value) :: rest => key.isWritable && value.isWritable && Node.areWritablePairs rest

end

/-- How many calls can be open at once. -/
def callLimit : Nat := 1000

mutual

/-- How many calls are open at once while a node is described.  A collection takes one for itself
and one for the list of its parts, with another one for each pair, and two that prepare these. -/
def Node.describingCalls : Node → Nat
  | .scalar _ => 4
  | .sequence items => 4 + Node.describingCallsOfItems items
  | .mapping pairs => 5 + Node.describingCallsOfPairs pairs

def Node.describingCallsOfItems : List Node → Nat
  | [] => 0
  | item :: rest => max item.describingCalls (Node.describingCallsOfItems rest)

def Node.describingCallsOfPairs : List (Node × Node) → Nat
  | [] => 0
  | (key, value) :: rest =>
      max (max key.describingCalls value.describingCalls) (Node.describingCallsOfPairs rest)

end

/-- Whether a message can show a node that is the key of a conditional value: its scalars can be
written, and it is not nested beyond the limit.  Six calls are open around its description. -/
def Node.isShowable (node : Node) : Bool :=
  node.isWritable && node.describingCalls + 6 ≤ callLimit

def Node.text? : Node → Option String
  | .scalar (.text s) => some s
  | _ => none

/-- The value of the first pair with a given text as its key. -/
def Node.get? (node : Node) (key : String) : Option Node :=
  match node with
  | .mapping pairs => (pairs.find? fun pair => pair.1.text? == some key).map Prod.snd
  | _ => none

/-- The key under which a mapping names the mapping that it inherits from. -/
def mergeKey : String := "<<"

end Stylesheet
