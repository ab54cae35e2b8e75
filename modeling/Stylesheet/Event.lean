import Stylesheet.Diagnostic
import Stylesheet.Environment.Provider
import Stylesheet.Logged

/-!
# Events

Reading a sheet leaves a trace: the questions put to the provider and the diagnostics recorded.
-/

namespace Stylesheet

/-- One step of a trace. -/
inductive Event where
  | asked (query : Query)
  | reported (diagnostic : Diagnostic)
deriving DecidableEq, Repr

def Event.diagnostic? : Event → Option Diagnostic
  | asked _ => none
  | reported d => some d

def Event.query? : Event → Option Query
  | asked query => some query
  | reported _ => none

def report {ε : Type} (d : Diagnostic) : Logged Event ε Unit :=
  Logged.note (.reported d)

namespace Logged

variable {ε α : Type}

/-- The diagnostics that a computation recorded, in order. -/
def diagnostics (x : Logged Event ε α) : List Diagnostic :=
  x.log.filterMap Event.diagnostic?

/-- The questions that a computation asked, in order. -/
def queries (x : Logged Event ε α) : List Query :=
  x.log.filterMap Event.query?

end Logged

/-- Collect what a computation recorded, whether it failed or not. -/
def Sink.collect {ε α : Type} (sink : Sink) (x : Logged Event ε α) : Sink :=
  ⟨sink.items ++ x.diagnostics⟩

end Stylesheet
