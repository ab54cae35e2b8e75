import Stylesheet.Document.Node
import Stylesheet.Rule.Literal
import Stylesheet.Rule.Value

/-!
# Reading rule values from documents

A scalar is a plain value or a literal, a mapping is a conditional value, and anything else is
undefined.  Branches are stored in the order in which they are tried: the last one written comes
first, and those whose condition mentions the fallback come after all others, as written.
-/

namespace Stylesheet

/-- A literal with a wrong number of arguments. -/
structure ArgumentCountError where
  function : String
  expected : Option Int
  found : Option Int
deriving DecidableEq, Repr

def ArgumentCountError.message (e : ArgumentCountError) : String :=
  let detail := match e.expected, e.found with
    | some expected, some found => s!": expected {expected}, found {found}"
    | _, _ => ""
  s!"Illegal number of arguments for '{e.function}'{detail}"

/-- Why a node is no rule value. -/
inductive RuleError where
  | argumentCount (e : ArgumentCountError)
  /-- A key of a conditional value is no expression literal. -/
  | invalidCondition (key : String)
  /-- The same, with a key that no message can show. -/
  | unshowableCondition

def RuleError.message? : RuleError → Option String
  | argumentCount e => some e.message
  | invalidCondition key => some s!"{key} is not a valid expression."
  | unshowableCondition => none

/-- Reading of rules: diagnostics are recorded on the way and stay when it fails. -/
abbrev RuleReading (α : Type) : Type :=
  Logged Event RuleError α

/-- The rule whose value is read, and the provider that font sizes are computed for. -/
structure RuleContext where
  provider : Provider
  key : Option String

namespace RuleContext

/-- Read a font size: an expression is evaluated at once; otherwise the longest numeral at the
start counts. -/
def fontSize {ε : Type} (context : RuleContext) (text : String) : Logged Event ε Float :=
  match Literal.body? text with
  | some body => do
      let e ← Expression.compileReporting body context.key
      e.evaluate context.provider context.key
  | none => match Decimal.takeNumeral? text.toList with
    | some (numeral, _) => return numeral.toFloat
    | none => do
        report
          { code := .invalidNumber, message := s!"'{text}' is not a number", rule := context.key }
        return 0

/-- The question whose lasting answer a font size is, if it is a NaN. -/
def sizeKept? (context : RuleContext) (text : String) : Option Query := do
  (Expression.compile (← Literal.body? text)).kept? context.provider

/-- The font of a family and a size.  The name of the system font counts in any case; no letters
but those of the Latin alphabet have its letters as their lower case. -/
def fontOf (family : String) (size : Float) (kept : Option Query := none) : Font :=
  if Text.sameLetters family.toList Font.systemName.toList then Font.system size kept
  else ⟨some family, size, kept⟩

def wrongCount {α : Type} (mark : String) (expected found : Nat) : RuleReading α :=
  Logged.fail (.argumentCount ⟨mark, some expected, some found⟩)

/-- Read a text: an expression, a font, a colour or just a string. -/
def parseText (context : RuleContext) (text : String) : RuleReading Value :=
  match Literal.body? text with
  | some body => return .expression (← Expression.compileReporting body context.key)
  | none =>
      if Literal.isCallOf Literal.fontMark text then
        match Literal.callArguments Literal.fontMark text with
        | [family, size] => do
            let points ← context.fontSize size
            let kept := context.sizeKept? size
            return .plain (.font (fontOf (Literal.unquote family) points kept))
        | arguments => wrongCount Literal.fontMark 2 arguments.length
      else if Literal.isCallOf Literal.colorMark text then
        match Literal.callArguments Literal.colorMark text with
        | [argument] =>
            match Color.ofText? (Literal.unquote argument) with
            | some color => return .plain (.color color)
            | none => do
                report
                  { code := .invalidColor
                    message := s!"{Color.refusal (Literal.unquote argument)}; using black"
                    rule := context.key }
                return .plain (.color .black)
        | arguments => wrongCount Literal.colorMark 1 arguments.length
      else return .plain (.string text)

def parseScalar (context : RuleContext) : Scalar → RuleReading Value
  | .null => return .undefined
  | .boolean b => return .plain (.boolean b)
  | .number n => return .plain (.number n)
  | .text s => context.parseText s

end RuleContext

/-- Whether a branch is a fallback: its condition mentions the fallback's name. -/
def Branch.isFallback {α : Type} (branch : Branch α) : Bool :=
  Literal.mentions Constants.fallback.toList branch.source.toList

/-- The order in which branches are tried. -/
def storageOrder {α : Type} (branches : List (Branch α)) : List (Branch α) :=
  (branches.filter (!·.isFallback)).reverse ++ branches.filter (·.isFallback)

/-- The condition that a key states, and the text that it is written as. -/
def Node.condition? (key : Node) : Option (String × String) := do
  let source ← key.text?
  return (source, ← Literal.body? source)

/-- A key as the message about it shows it. -/
def Node.keyText : Node → String
  | .scalar .null => (Node.scalar .null).describe
  | .scalar value => value.display
  | node => node.describe

/-- Why a key that states no condition is refused. -/
def Node.conditionError (key : Node) : RuleError :=
  if key.isShowable then .invalidCondition key.keyText else .unshowableCondition

/-- The diagnostic for branches of different kinds. -/
def mixedKinds (kinds : List Kind) (key : Option String) : Diagnostic where
  code := .heterogeneousConditional
  message := "Conditional value has non-homogeneous return types: "
    ++ ", ".intercalate (kinds.map Kind.text)
  rule := key

/-- The conditional value of branches in the order in which they are written. -/
def Value.ofBranches {ε : Type} (key : Option String) (branches : List (Branch Value)) :
    Logged Event ε Value := do
  let kinds := branches.map (·.value.kind)
  let kind := kinds.headD .undefined
  unless kinds.all (· == kind) do
    report (mixedKinds kinds key)
  return .conditional kind (storageOrder branches)

mutual

def Value.ofNode (context : RuleContext) : Node → RuleReading Value
  | .scalar value => context.parseScalar value
  | .sequence _ => return .undefined
  | .mapping pairs => do
      Value.ofBranches context.key (← Value.branchesOfPairs context pairs)

/-- Read the branches of a conditional value, in the order in which they are written. -/
def Value.branchesOfPairs (context : RuleContext) :
    List (Node × Node) → RuleReading (List (Branch Value))
  | [] => return []
  | (key, node) :: rest =>
      match key.condition? with
      | none => Logged.fail key.conditionError
      | some (source, body) => do
          let value ← Value.ofNode context node
          let condition ← Expression.compileReporting body context.key
          let others ← Value.branchesOfPairs context rest
          return ⟨source, condition, value⟩ :: others

end

def Rule.ofNode (provider : Provider) (key : String) (node : Node) : RuleReading Rule := do
  return ⟨key, ← Value.ofNode ⟨provider, some key⟩ node⟩

end Stylesheet
