import Stylesheet.Event

/-!
# Failures and diagnostics of computations

A computation with a log is looked at from two sides: why it failed, if it did, and which
diagnostics it recorded.  Both follow the order in which the parts of the computation run.
-/

namespace Stylesheet

theorem bind_eq_ok_iff {ε α β : Type} {x : Except ε α} {f : α → Except ε β} {b : β} :
    x >>= f = .ok b ↔ ∃ a, x = .ok a ∧ f a = .ok b := by
  cases x <;> simp [bind, Except.bind]

/-- A sequence does not fail in a way in which neither of its parts does. -/
theorem bind_ne_error {ε α β : Type} {x : Except ε α} {f : α → Except ε β} {e : ε}
    (hx : x ≠ .error e) (hf : ∀ a, x = .ok a → f a ≠ .error e) : x >>= f ≠ .error e := by
  cases x with
  | error e' => simpa [bind, Except.bind] using hx
  | ok a => exact hf a rfl

namespace Logged

variable {ω ε α β : Type}

/-- Why a computation failed, if it did. -/
def failure? (x : Logged ω ε α) : Option ε :=
  match x.outcome with
  | .error e => some e
  | .ok _ => none

theorem failure?_eq_some_iff {x : Logged ω ε α} {e : ε} :
    x.failure? = some e ↔ x.outcome = .error e := by
  unfold failure?
  cases x.outcome <;> simp

theorem failure?_eq_none_iff {x : Logged ω ε α} :
    x.failure? = none ↔ ∃ a, x.outcome = .ok a := by
  unfold failure?
  cases x.outcome <;> simp

theorem exists_outcome_ok_iff {x : Logged ω ε α} :
    (∃ a, x.outcome = .ok a) ↔ ¬ ∃ e, x.outcome = .error e := by
  cases x.outcome <;> simp

theorem failure?_of_ok {x : Logged ω ε α} {a : α} (hx : x.outcome = .ok a) : x.failure? = none :=
  failure?_eq_none_iff.mpr ⟨a, hx⟩

@[simp] theorem failure?_pure (a : α) : (pure a : Logged ω ε α).failure? = none := rfl

@[simp] theorem failure?_fail (e : ε) : (fail e : Logged ω ε α).failure? = some e := rfl

/-- When what comes second fails alike for every value that it is given, then the whole fails as
its first part does, and otherwise as its second. -/
theorem failure?_bind {x : Logged ω ε α} {f : α → Logged ω ε β} {second : Option ε}
    (hsecond : ∀ a, (f a).failure? = second) :
    (x >>= f).failure? = x.failure?.or second := by
  cases hx : x.outcome with
  | error e =>
      rw [bind_of_error hx f, failure?_eq_some_iff.mpr hx]
      rfl
  | ok a =>
      rw [bind_of_ok hx f, failure?_of_ok hx, Option.none_or, ← hsecond a]
      rfl

theorem failure?_mapError {ε' : Type} (f : ε → ε') (x : Logged ω ε α) :
    (x.mapError f).failure? = x.failure?.map f := by
  unfold failure? mapError
  cases x.outcome <;> rfl

theorem outcome_mapError_eq_ok_iff {ε' : Type} {f : ε → ε'} {x : Logged ω ε α} {a : α} :
    (x.mapError f).outcome = .ok a ↔ x.outcome = .ok a := by
  unfold mapError
  cases x.outcome with
  | error e =>
      constructor
      · intro hfails
        cases hfails
      · intro hfails
        cases hfails
  | ok b =>
      constructor
      · intro hb
        cases hb
        rfl
      · intro hb
        cases hb
        rfl

/-- A sequence succeeds when both of its parts do. -/
theorem outcome_bind_eq_ok_iff {x : Logged ω ε α} {f : α → Logged ω ε β} {b : β} :
    (x >>= f).outcome = .ok b ↔ ∃ a, x.outcome = .ok a ∧ (f a).outcome = .ok b := by
  cases hx : x.outcome with
  | error e => simp [bind_of_error hx f]
  | ok a => simp [bind_of_ok hx f]

/-- After a success, the diagnostics of the second part follow those of the first. -/
theorem diagnostics_bind {ε : Type} {x : Logged Event ε α} {a : α} (hx : x.outcome = .ok a)
    (f : α → Logged Event ε β) :
    (x >>= f).diagnostics = x.diagnostics ++ (f a).diagnostics := by
  rw [bind_of_ok hx f]
  simp [diagnostics]

@[simp] theorem diagnostics_pure {ε : Type} (a : α) :
    (pure a : Logged Event ε α).diagnostics = [] := rfl

@[simp] theorem diagnostics_report {ε : Type} (d : Diagnostic) :
    (report d : Logged Event ε Unit).diagnostics = [d] := rfl

@[simp] theorem outcome_report {ε : Type} (d : Diagnostic) :
    (report d : Logged Event ε Unit).outcome = .ok () := rfl

@[simp] theorem diagnostics_fail {ε : Type} (e : ε) :
    (fail e : Logged Event ε α).diagnostics = [] := rfl

@[simp] theorem diagnostics_mapError {ε ε' : Type} (f : ε → ε') (x : Logged Event ε α) :
    (x.mapError f).diagnostics = x.diagnostics := rfl

/-- What a sequence records is recorded by its first part or, after a success, by its second. -/
theorem mem_diagnostics_bind_iff {ε : Type} {x : Logged Event ε α} {f : α → Logged Event ε β}
    {d : Diagnostic} :
    d ∈ (x >>= f).diagnostics ↔
      d ∈ x.diagnostics ∨ ∃ a, x.outcome = .ok a ∧ d ∈ (f a).diagnostics := by
  cases hx : x.outcome with
  | ok a => simp [diagnostics_bind hx]
  | error e =>
      rw [bind_of_error hx]
      simp [diagnostics]

/-- A computation records no diagnostic of a code. -/
def Avoids {ε : Type} (x : Logged Event ε α) (code : DiagnosticCode) : Prop :=
  ∀ d ∈ x.diagnostics, d.code ≠ code

theorem avoids_pure {ε : Type} (a : α) (code : DiagnosticCode) :
    (pure a : Logged Event ε α).Avoids code := by
  simp [Avoids]

theorem avoids_report_iff {ε : Type} {d : Diagnostic} {code : DiagnosticCode} :
    (report d : Logged Event ε Unit).Avoids code ↔ d.code ≠ code := by
  simp [Avoids]

/-- After a success, a sequence avoids a code when both of its parts do. -/
theorem avoids_bind_iff {ε : Type} {x : Logged Event ε α} {a : α} (hx : x.outcome = .ok a)
    (f : α → Logged Event ε β) {code : DiagnosticCode} :
    (x >>= f).Avoids code ↔ x.Avoids code ∧ (f a).Avoids code := by
  unfold Avoids
  rw [diagnostics_bind hx f]
  constructor
  · intro hall
    exact ⟨fun d hd => hall d (List.mem_append_left _ hd),
      fun d hd => hall d (List.mem_append_right _ hd)⟩
  · rintro ⟨hfirst, hsecond⟩ d hd
    rcases List.mem_append.mp hd with hd | hd
    · exact hfirst d hd
    · exact hsecond d hd

/-- Changing a result changes no diagnostics. -/
theorem diagnostics_bind_pure {ε : Type} (x : Logged Event ε α) (f : α → β) :
    (x >>= fun a => pure (f a)).diagnostics = x.diagnostics := by
  cases hx : x.outcome with
  | ok a => rw [diagnostics_bind hx, diagnostics_pure, List.append_nil]
  | error e =>
      rw [bind_of_error hx]
      rfl

theorem avoids_bind_pure_iff {ε : Type} {x : Logged Event ε α} {f : α → β}
    {code : DiagnosticCode} :
    (x >>= fun a => pure (f a)).Avoids code ↔ x.Avoids code := by
  unfold Avoids
  rw [diagnostics_bind_pure]

/-- Changing a result changes no failure. -/
theorem outcome_bind_pure_eq_error_iff {x : Logged ω ε α} {f : α → β} {e : ε} :
    (x >>= fun a => pure (f a)).outcome = .error e ↔ x.outcome = .error e := by
  cases hx : x.outcome with
  | ok a => simp [bind_of_ok hx]
  | error e' => simp [bind_of_error hx]

/-- A computation records a diagnostic of one of some codes. -/
def Reports {ε : Type} (x : Logged Event ε α) (codes : List DiagnosticCode) : Prop :=
  ∃ d ∈ x.diagnostics, d.code ∈ codes

variable {codes : List DiagnosticCode}

theorem reports_report_iff {ε : Type} {d : Diagnostic} :
    (report d : Logged Event ε Unit).Reports codes ↔ d.code ∈ codes := by
  simp [Reports]

/-- What the first part of a sequence records, the sequence does. -/
theorem Reports.bind {ε : Type} {x : Logged Event ε α} (hx : x.Reports codes)
    (f : α → Logged Event ε β) : (x >>= f).Reports codes := by
  obtain ⟨d, hd, hcode⟩ := hx
  refine ⟨d, ?_, hcode⟩
  cases houtcome : x.outcome with
  | ok a =>
      rw [diagnostics_bind houtcome]
      exact List.mem_append_left _ hd
  | error e =>
      rw [bind_of_error houtcome]
      exact hd

theorem reports_report_bind {ε : Type} {d : Diagnostic} (hcode : d.code ∈ codes)
    (f : Unit → Logged Event ε α) : (report d >>= f).Reports codes := by
  apply Reports.bind
  exact reports_report_iff.mpr hcode

/-- What the second part of a sequence records after a success, the sequence does. -/
theorem Reports.bind_of_ok {ε : Type} {x : Logged Event ε α} {a : α} (hx : x.outcome = .ok a)
    {f : α → Logged Event ε β} (hf : (f a).Reports codes) : (x >>= f).Reports codes := by
  obtain ⟨d, hd, hcode⟩ := hf
  refine ⟨d, ?_, hcode⟩
  rw [diagnostics_bind hx]
  exact List.mem_append_right _ hd

/-- A computation behind some entries. -/
def after (x : Logged ω ε α) (entries : List ω) : Logged ω ε α :=
  ⟨x.outcome, entries ++ x.log⟩

@[simp] theorem outcome_after (x : Logged ω ε α) (entries : List ω) :
    (x.after entries).outcome = x.outcome := rfl

@[simp] theorem log_after (x : Logged ω ε α) (entries : List ω) :
    (x.after entries).log = entries ++ x.log := rfl

theorem after_after (x : Logged ω ε α) (earlier later : List ω) :
    (x.after later).after earlier = x.after (earlier ++ later) := by
  simp [after]

theorem bind_eq_after {x : Logged ω ε α} {a : α} (hx : x.outcome = .ok a)
    (f : α → Logged ω ε β) : x >>= f = (f a).after x.log :=
  bind_of_ok hx f

theorem queries_after {ε : Type} (x : Logged Event ε α) (entries : List Event) :
    (x.after entries).queries = entries.filterMap Event.query? ++ x.queries := by
  simp [queries]

theorem diagnostics_after {ε : Type} (x : Logged Event ε α) (entries : List Event) :
    (x.after entries).diagnostics = entries.filterMap Event.diagnostic? ++ x.diagnostics := by
  simp [diagnostics]

/-- What is recorded behind some entries is recorded. -/
theorem Reports.after {ε : Type} {x : Logged Event ε α} (hx : x.Reports codes)
    (entries : List Event) : (x.after entries).Reports codes := by
  obtain ⟨d, hd, hcode⟩ := hx
  refine ⟨d, ?_, hcode⟩
  rw [diagnostics_after]
  exact List.mem_append_right _ hd

end Logged

end Stylesheet
