import Stylesheet.Environment.Symbol

/-!
# Providers

Expressions do not see an environment.  They ask a provider, one question at a time, and a
provider answers with a number, with nothing or with the text of a failure.
-/

namespace Stylesheet

/-- A question that an expression asks. -/
inductive Query where
  | symbol (s : EnvironmentSymbol)
  /-- The value of an application's own variable. -/
  | named (name : String)
deriving DecidableEq, Repr

/-- The question about a name that is no constant. -/
def Query.ofName (name : String) : Query :=
  match (Named.ofName? name : Option EnvironmentSymbol) with
  | some s => .symbol s
  | none => .named name

/-- The answers to all questions. -/
structure Provider where
  /-- The code behind an environment symbol, or why it is not known. -/
  symbol : EnvironmentSymbol → Except String Float
  /-- The value of a variable, nothing if there is no such variable, or why it is not known. -/
  named : String → Except String (Option Float)
  /-- Whether the answer to a question is the same object each time, and not just an equal one.  Only
  for a NaN, which differs from all others, does that make a difference. -/
  keeps : Query → Bool := fun _ => true

def Provider.answer (provider : Provider) : Query → Except String (Option Float)
  | .symbol s => (provider.symbol s).map some
  | .named name => provider.named name

end Stylesheet
