/-!
# Diagnostics

What goes wrong without stopping the work is recorded as a diagnostic: a value fell back to a
default, an expression does not compile, a condition had no match.
-/

namespace Stylesheet

/-- How serious a diagnostic is. -/
inductive Severity where
  /-- A fallback that is expected. -/
  | info
  /-- A value that gave way to a default. -/
  | warning
  | error
deriving DecidableEq, Repr

def Severity.text : Severity → String
  | info => "info"
  | warning => "warning"
  | error => "error"

/-- What a diagnostic is about. -/
inductive DiagnosticCode where
  | typeMismatch
  | evaluationFailed
  | compileFailed
  | heterogeneousConditional
  | invalidColor
  | invalidNumber
  | noMatch
  | unknownRule
  /-- A code that an application uses for diagnostics of its own. -/
  | custom (text : String)
deriving DecidableEq, Repr

def DiagnosticCode.text : DiagnosticCode → String
  | typeMismatch => "TYPE_MISMATCH"
  | evaluationFailed => "EVALUATION_FAILED"
  | compileFailed => "COMPILE_FAILED"
  | heterogeneousConditional => "HETEROGENEOUS_CONDITIONAL"
  | invalidColor => "INVALID_COLOR"
  | invalidNumber => "INVALID_NUMBER"
  | noMatch => "NO_MATCH"
  | unknownRule => "UNKNOWN_RULE"
  | custom text => text

/-- A single finding. -/
structure Diagnostic where
  code : DiagnosticCode
  message : String
  severity : Severity := .warning
  /-- The key of the rule concerned, if there is one. -/
  rule : Option String := none
deriving DecidableEq, Repr

/-- A diagnostic in one line: severity, code, rule and message. -/
def Diagnostic.text (d : Diagnostic) : String :=
  let place := match d.rule with
    | none | some "" => ""
    | some rule => s!" [{rule}]"
  s!"{d.severity.text}: {d.code.text}{place}: {d.message}"

/-- Diagnostics that are collected over several computations, in the order of their arrival. -/
structure Sink where
  items : List Diagnostic := []

namespace Sink

def add (sink : Sink) (d : Diagnostic) : Sink :=
  ⟨sink.items ++ [d]⟩

def size (sink : Sink) : Nat :=
  sink.items.length

def codes (sink : Sink) : List String :=
  sink.items.map (·.code.text)

def texts (sink : Sink) : List String :=
  sink.items.map Diagnostic.text

end Sink

end Stylesheet
