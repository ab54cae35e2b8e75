import Stylesheet.Rule.Resolve

/-!
# Typed reads

An accessor reads rules as values of one type.  A rule of another kind, a value that does not fit
and an expression without a value give nothing, and a diagnostic says why; the caller then has a
default at hand.  The one failure is an integer that no double can hold.
-/

namespace Stylesheet

/-- An integer beyond all doubles, read as a number. -/
inductive ReadError where
  | integerTooLarge
deriving DecidableEq, Repr

/-- The number that a plain value counts as: a truth value counts as one or zero. -/
def Plain.toNumber? : Plain → Except ReadError (Option Float)
  | .boolean b => .ok (some (ofTruth b))
  | .number n => match n.toFloat? with
    | some x => .ok (some x)
    | none => .error .integerTooLarge
  | _ => .ok none

/-- What is found in a rule: its own plain value, the value of its expression, or what its branches
resolve to. -/
def Rule.content {ε : Type} (provider : Provider) (rule : Rule) : Logged Event ε Resolution :=
  match rule.value with
  | .conditional _ branches => Value.resolveBranches provider (some rule.key) branches
  | .expression e => do
      match ← e.evaluate? provider (some rule.key) with
      | some x => return .value (.number (.real x))
      | none => return .unavailable
  | .plain value => return .value value
  | .undefined => return .undefined

/-- A rule is looked into as its value is resolved. -/
theorem Rule.content_eq_resolve {ε : Type} (provider : Provider) (rule : Rule) :
    (rule.content provider : Logged Event ε Resolution)
      = rule.value.resolve provider (some rule.key) := by
  unfold Rule.content Value.resolve
  cases rule.value <;> rfl

/-- A way to read rules. -/
structure Accessor (α : Type) where
  /-- The type as a mismatch names it. -/
  name : String
  /-- The kinds of rules that can be read. -/
  kinds : List Kind
  /-- The value that a plain value is read as, if it fits. -/
  convert : Plain → Except ReadError (Option α)

namespace Accessor

/-- The kinds of rules that count as numbers. -/
def numericKinds : List Kind := [.number, .boolean, .expression]

/-- Numbers, without their fraction. -/
def integer : Accessor Int where
  name := "integer"
  kinds := numericKinds
  convert plain := do
    return (← plain.toNumber?).bind fun x =>
      (Decimal.Binary.ofFloat? x).map Decimal.Binary.truncate

def float : Accessor Float where
  name := "float"
  kinds := numericKinds
  convert := Plain.toNumber?

def boolean : Accessor Bool where
  name := "boolean"
  kinds := numericKinds
  convert plain := do return (← plain.toNumber?).map truthy

def string : Accessor String where
  name := "string"
  kinds := [.string]
  convert
    | .string s => .ok (some s)
    | _ => .ok none

def font : Accessor Font where
  name := "font"
  kinds := [.font]
  convert
    | .font f => .ok (some f)
    | _ => .ok none

def color : Accessor Color where
  name := "color"
  kinds := [.color]
  convert
    | .color c => .ok (some c)
    | _ => .ok none

variable {α : Type}

/-- The diagnostic for a rule that cannot be read, given what was found instead. -/
def mismatch (accessor : Accessor α) (rule : Rule) (found : String) : Diagnostic where
  code := .typeMismatch
  message := s!"Type mismatch: wanted {accessor.name}, found {found}"
  rule := some rule.key

/-- Read a rule; without a value there is a diagnostic. -/
def read? (accessor : Accessor α) (provider : Provider) (rule : Rule) :
    Logged Event ReadError (Option α) :=
  if rule.value.kind ∈ accessor.kinds then do
    match ← rule.content provider with
    | .value plain =>
        match ← Logged.ofExcept (accessor.convert plain) with
        | some result => return some result
        | none => do
            report (accessor.mismatch rule plain.typeName)
            return none
    | .undefined | .unavailable => return none
  else do
    report (accessor.mismatch rule rule.value.kind.text)
    return none

/-- Read a rule, with a default in place of a missing value. -/
def read (accessor : Accessor α) (provider : Provider) (rule : Rule) (default : α) :
    Logged Event ReadError α := do
  return (← accessor.read? provider rule).getD default

end Accessor

/-- Read a rule as its own kind suggests.  Numbers, truth values and strings have defaults of their
own; of other rules without a value, nothing is known. -/
def Rule.resolve? (provider : Provider) (rule : Rule) : Logged Event ReadError (Option Plain) :=
  match rule.value.kind with
  | .number | .expression => do
      return some (.number (.real (← Accessor.float.read provider rule 0)))
  | .boolean => do return some (.boolean (← Accessor.boolean.read provider rule false))
  | .string => do return some (.string (← Accessor.string.read provider rule ""))
  | .font => do return (← Accessor.font.read? provider rule).map .font
  | .color => do return (← Accessor.color.read? provider rule).map .color
  | .undefined => return none

/-- Read a rule as its own kind suggests, with a default in place of a missing value. -/
def Rule.resolve (provider : Provider) (rule : Rule) (default : Option Plain) :
    Logged Event ReadError (Option Plain) := do
  return (← rule.resolve? provider).or default

end Stylesheet
