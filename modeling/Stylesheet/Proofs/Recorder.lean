import Stylesheet.Proofs.Expression
import Stylesheet.Proofs.Recording

/-!
# Runs that hand on a sink

The same program once more, as it runs with a sink: every part is given the sink that the parts
before it left, adds its diagnostics to it as it meets them, and hands it on, also when it fails.
Here is how such runs are put together, and how they relate to computations that keep a log.
-/

namespace Stylesheet

/-- A run with a sink or without one. -/
abbrev Recorder (ε α : Type) : Type :=
  ExceptT ε (StateM (Option Sink)) α

/-- Add a diagnostic to the sink, if there is one. -/
def record {ε : Type} (d : Diagnostic) : Recorder ε Unit :=
  modify fun sink? => sink?.map (·.add d)

namespace Logged

variable {ε α β : Type}

/-- A computation that keeps a log, run with a sink. -/
def recorded (x : Logged Event ε α) : Recorder ε α :=
  ExceptT.mk fun sink? => x.recordIn sink?

theorem recorded_congr {x : Logged Event ε α} {run : Recorder ε α}
    (hrun : ∀ sink?, x.recordIn sink? = run.run.run sink?) : x.recorded = run :=
  funext hrun

theorem recorded_pure (a : α) : (pure a : Logged Event ε α).recorded = pure a :=
  recorded_congr fun sink? => recordIn_pure a sink?

theorem recorded_fail (e : ε) : (fail e : Logged Event ε α).recorded = throw e :=
  recorded_congr fun sink? => recordIn_fail e sink?

theorem recorded_ofExcept (outcome : Except ε α) :
    (ofExcept outcome : Logged Event ε α).recorded = liftExcept outcome := by
  cases outcome with
  | ok a => exact recorded_pure a
  | error e => exact recorded_fail e

theorem recorded_report (d : Diagnostic) : (report d : Logged Event ε Unit).recorded = record d :=
  recorded_congr fun sink? => recordIn_report d sink?

/-- What comes second is handed the sink that comes out of the first. -/
theorem recorded_bind (x : Logged Event ε α) (f : α → Logged Event ε β) :
    (x >>= f).recorded = x.recorded >>= fun a => (f a).recorded := by
  apply recorded_congr
  intro sink?
  rw [recordIn_bind]
  obtain ⟨outcome, log⟩ := x
  cases outcome <;> rfl

theorem recorded_mapError {ε' : Type} (f : ε → ε') (x : Logged Event ε α) :
    (x.mapError f).recorded = x.recorded.adapt f := by
  obtain ⟨outcome, log⟩ := x
  cases outcome <;> rfl

/-- Questions leave a sink as it is. -/
theorem recorded_asked (a : α) (queries : List Query) :
    (⟨.ok a, queries.map Event.asked⟩ : Logged Event ε α).recorded = pure a := by
  apply recorded_congr
  intro sink?
  simp only [recordIn, Sink.foldl_after, filterMap_diagnostic?_map_asked, List.append_nil]
  cases sink? <;> rfl

end Logged

end Stylesheet
