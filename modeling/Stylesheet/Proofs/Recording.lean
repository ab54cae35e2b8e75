import Stylesheet.Proofs.Logged

/-!
# Recording into sinks

A computation runs with a sink or without one.  The sink is handed on from one part of the
computation to the next, and every diagnostic is added to it when it is reported.  All that a run
does to a sink is to append to it, and neither what it appends nor its result depends on what the
sink holds, or on whether there is one.
-/

namespace Stylesheet

/-- A sink after an event: a diagnostic is added, and a question leaves the sink as it is. -/
def Sink.after (sink : Sink) : Event → Sink
  | .asked _ => sink
  | .reported d => sink.add d

/-- After some events, a sink has their diagnostics behind what it had. -/
theorem Sink.foldl_after (events : List Event) (sink : Sink) :
    events.foldl Sink.after sink = ⟨sink.items ++ events.filterMap Event.diagnostic?⟩ := by
  induction events generalizing sink with
  | nil => simp
  | cons event rest ih =>
      rw [List.foldl_cons, ih]
      cases event with
      | asked query => rfl
      | reported d => simp [Sink.after, Sink.add, Event.diagnostic?]

namespace Logged

variable {ε α β : Type}

/-- Event by event, a sink collects the diagnostics of a computation. -/
theorem foldl_after_log (x : Logged Event ε α) (sink : Sink) :
    x.log.foldl Sink.after sink = sink.collect x :=
  Sink.foldl_after x.log sink

/-- Run a computation with a sink, if there is one: its outcome, and the sink after all events. -/
def recordIn (x : Logged Event ε α) (sink? : Option Sink) : Except ε α × Option Sink :=
  (x.outcome, sink?.map fun sink => x.log.foldl Sink.after sink)

theorem recordIn_pure (a : α) (sink? : Option Sink) :
    (pure a : Logged Event ε α).recordIn sink? = (.ok a, sink?) := by
  simp [recordIn]

theorem recordIn_fail (e : ε) (sink? : Option Sink) :
    (fail e : Logged Event ε α).recordIn sink? = (.error e, sink?) := by
  simp [recordIn, fail]

theorem recordIn_report (d : Diagnostic) (sink? : Option Sink) :
    (report d : Logged Event ε Unit).recordIn sink? = (.ok (), sink?.map (·.add d)) := rfl

/-- The second part of a sequence runs with the sink that the first part leaves; when the first part
fails, the sink stays as it is then. -/
theorem recordIn_bind (x : Logged Event ε α) (f : α → Logged Event ε β) (sink? : Option Sink) :
    (x >>= f).recordIn sink? =
      match x.recordIn sink? with
      | (.ok a, sink?) => (f a).recordIn sink?
      | (.error e, sink?) => (.error e, sink?) := by
  cases hx : x.outcome with
  | ok a =>
      rw [bind_of_ok hx]
      simp [recordIn, hx, Option.map_map, Function.comp_def]
  | error e =>
      rw [bind_of_error hx]
      simp [recordIn, hx]

/-- `x.Appends suffix`: whatever sink a computation is given, its outcome is the same and it appends
the same diagnostics to the sink; without a sink, the outcome is the same again. -/
structure Appends (x : Logged Event ε α) (suffix : List Diagnostic) : Prop where
  supplied : ∀ sink : Sink, x.recordIn (some sink) = (x.outcome, some ⟨sink.items ++ suffix⟩)
  without : x.recordIn none = (x.outcome, none)

/-- A computation appends its diagnostics. -/
theorem appends_diagnostics (x : Logged Event ε α) : x.Appends x.diagnostics where
  supplied sink := by
    rw [recordIn, Option.map_some, foldl_after_log]
    rfl
  without := rfl

/-- What is appended to the empty sink is appended to any. -/
theorem Appends.eq_diagnostics {x : Logged Event ε α} {suffix : List Diagnostic}
    (happends : x.Appends suffix) : suffix = x.diagnostics := by
  have hempty := (happends.supplied ⟨[]⟩).symm.trans (x.appends_diagnostics.supplied ⟨[]⟩)
  simpa using hempty

/-- All diagnostics of a computation name a rule. -/
def RecordsFor (x : Logged Event ε α) (rule : Option String) : Prop :=
  ∀ d ∈ x.diagnostics, d.rule = rule

variable {rule : Option String}

theorem recordsFor_pure (a : α) : (pure a : Logged Event ε α).RecordsFor rule := by
  simp [RecordsFor]

theorem recordsFor_ofExcept (outcome : Except ε α) :
    (ofExcept outcome : Logged Event ε α).RecordsFor rule := by
  simp [RecordsFor, ofExcept, diagnostics]

theorem recordsFor_report {d : Diagnostic} (hd : d.rule = rule) :
    (report d : Logged Event ε Unit).RecordsFor rule := by
  simpa [RecordsFor] using hd

theorem RecordsFor.bind {x : Logged Event ε α} {f : α → Logged Event ε β} (hx : x.RecordsFor rule)
    (hf : ∀ a, (f a).RecordsFor rule) : (x >>= f).RecordsFor rule := by
  intro d hd
  rcases mem_diagnostics_bind_iff.mp hd with hd | ⟨a, -, hd⟩
  · exact hx d hd
  · exact hf a d hd

end Logged

end Stylesheet
