import Stylesheet.Rule.Value

/-!
# Resolving values

The plain value that a rule's value has for a provider.  Branches are tried in stored order; one
without a value is passed over, and the first with a true condition is taken for good.
-/

namespace Stylesheet

/-- What a value resolves to. -/
inductive Resolution where
  | value (plain : Plain)
  /-- The value is undefined itself. -/
  | undefined
  /-- No branch matched or an expression failed, so a default has to do. -/
  | unavailable

/-- The diagnostic for a conditional value none of whose conditions holds. -/
def noMatch (rule : Option String) : Diagnostic where
  code := .noMatch
  message := "No conditional branch matched; using default"
  severity := .info
  rule := rule

mutual

/-- Resolve a value; diagnostics name the given rule. -/
def Value.resolve {ε : Type} (provider : Provider) (rule : Option String) :
    Value → Logged Event ε Resolution
  | .undefined => return .undefined
  | .plain value => return .value value
  | .expression e => do
      match ← e.evaluate? provider rule with
      | some x => return .value (.number (.real x))
      | none => return .unavailable
  | .conditional _ branches => Value.resolveBranches provider rule branches

/-- Resolve the first branch that has a value and whose condition holds. -/
def Value.resolveBranches {ε : Type} (provider : Provider) (rule : Option String) :
    List (Branch Value) → Logged Event ε Resolution
  | [] => do
      report (noMatch rule)
      return .unavailable
  | branch :: rest =>
      if branch.value.isUndefined then
        Value.resolveBranches provider rule rest
      else do
        if truthy (← branch.condition.evaluate provider rule) then
          branch.value.resolve provider rule
        else
          Value.resolveBranches provider rule rest

end

/-- The plain value of a resolution, with a default in place of one that is not to be had.  What is
undefined has no value all the same. -/
def Resolution.orDefault (default : Option Plain) : Resolution → Option Plain
  | value plain => some plain
  | undefined => none
  | unavailable => default

/-- Resolve a value, with a default in place of one that is not to be had. -/
def Value.resolveOr {ε : Type} (provider : Provider) (rule : Option String)
    (default : Option Plain) (value : Value) : Logged Event ε (Option Plain) := do
  return (← value.resolve provider rule).orDefault default

end Stylesheet
