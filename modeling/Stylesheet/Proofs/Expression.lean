import Stylesheet.Expression.Compiled
import Stylesheet.Proofs.Decimal
import Stylesheet.Proofs.Logged

/-!
# Compiled expressions in computations

Compiling always gives an expression, and evaluating always gives a number or nothing.  What went
wrong is left to a diagnostic, of one code for each of the two.
-/

namespace Stylesheet

/-- Whether an expression has a value other than zero. -/
def Expression.holds (provider : Provider) (e : Expression) : Bool :=
  match (e.attempt provider).outcome with
  | .ok x => truthy x
  | .error _ => false

/-- NaN counts as true. -/
theorem truthy_of_isNaN {x : Float} (hnan : x.isNaN = true) : truthy x = true := by
  have hunpack := Decimal.unpack_of_isNaN hnan
  simp only [truthy, bne, BEq.beq, Float.beq, Float.Model.beq, hunpack]
  rfl

/-- Questions are no diagnostics. -/
theorem filterMap_diagnostic?_map_asked (queries : List Query) :
    (queries.map Event.asked).filterMap Event.diagnostic? = [] := by
  rw [List.filterMap_map]
  exact List.filterMap_eq_nil_iff.mpr fun query _ => rfl

theorem filterMap_query?_map_asked (queries : List Query) :
    (queries.map Event.asked).filterMap Event.query? = queries := by
  rw [List.filterMap_map]
  exact List.filterMap_some

namespace Expression

variable {ε : Type}

/-- Compiling gives an expression, whatever the text. -/
theorem outcome_compileReporting (source : String) (rule : Option String) :
    (compileReporting source rule : Logged Event ε Expression).outcome
      = .ok (compile source) := by
  unfold compileReporting
  cases htree : (compile source).tree <;> simp [htree, Logged.bind_of_ok (Logged.outcome_report _)]

/-- Compiling records that the text is no expression, and nothing else. -/
theorem mem_diagnostics_compileReporting_iff {source : String} {rule : Option String}
    {d : Diagnostic} :
    d ∈ (compileReporting source rule : Logged Event ε Expression).diagnostics ↔
      ∃ error, Expr.ofText source = .error error ∧
        d = (compile source).compileFailure error rule := by
  have htree : (compile source).tree = Expr.ofText source := rfl
  unfold compileReporting
  cases hsource : Expr.ofText source with
  | ok tree => simp [htree, hsource]
  | error error =>
      simp only [htree, hsource]
      rw [Logged.diagnostics_bind_pure]
      simp

/-- The only diagnostic of compiling is that of the text. -/
theorem avoids_compileReporting (source : String) (rule : Option String) {code : DiagnosticCode}
    (hcode : .compileFailed ≠ code) :
    (compileReporting source rule : Logged Event ε Expression).Avoids code := by
  unfold compileReporting
  cases htree : (compile source).tree with
  | ok tree =>
      simp only [htree]
      exact Logged.avoids_pure _ code
  | error e =>
      simp only [htree]
      rw [Logged.avoids_bind_iff (Logged.outcome_report _), Logged.avoids_report_iff]
      exact ⟨hcode, Logged.avoids_pure _ code⟩

def failure? (provider : Provider) (rule : Option String) (e : Expression) : Option Diagnostic :=
  match (e.attempt provider).outcome with
  | .ok _ => none
  | .error reason => some (e.failure reason rule)

/-- What an evaluation leaves behind: its questions, and then its failure if it fails. -/
def trace (provider : Provider) (rule : Option String) (e : Expression) : List Event :=
  (e.attempt provider).log.map .asked ++ (e.failure? provider rule).toList.map .reported

variable {e : Expression} {provider : Provider} {x : Float} {reason : EvaluationFailure}

theorem failure?_of_ok (hattempt : (e.attempt provider).outcome = .ok x) (rule : Option String) :
    e.failure? provider rule = none := by
  simp only [failure?, hattempt]

theorem failure?_of_error (hattempt : (e.attempt provider).outcome = .error reason)
    (rule : Option String) : e.failure? provider rule = some (e.failure reason rule) := by
  simp only [failure?, hattempt]

theorem failure?_eq_some_iff {rule : Option String} {d : Diagnostic} :
    e.failure? provider rule = some d ↔
      ∃ reason, (e.attempt provider).outcome = .error reason ∧ d = e.failure reason rule := by
  unfold failure?
  cases (e.attempt provider).outcome <;> simp [eq_comm]

theorem filterMap_query?_trace (e : Expression) (provider : Provider) (rule : Option String) :
    (e.trace provider rule).filterMap Event.query? = (e.attempt provider).log := by
  rw [trace, List.filterMap_append, filterMap_query?_map_asked]
  cases e.failure? provider rule <;> simp [Event.query?]

theorem filterMap_diagnostic?_trace (e : Expression) (provider : Provider)
    (rule : Option String) :
    (e.trace provider rule).filterMap Event.diagnostic? = (e.failure? provider rule).toList := by
  rw [trace, List.filterMap_append, filterMap_diagnostic?_map_asked]
  cases e.failure? provider rule <;> simp [Event.diagnostic?]

theorem holds_of_ok (hattempt : (e.attempt provider).outcome = .ok x) :
    e.holds provider = truthy x := by
  simp only [holds, hattempt]

theorem holds_of_error (hattempt : (e.attempt provider).outcome = .error reason) :
    e.holds provider = false := by
  simp only [holds, hattempt]

/-- An evaluation with a value asks its questions and records nothing. -/
theorem evaluate?_of_ok (hattempt : (e.attempt provider).outcome = .ok x) (rule : Option String) :
    (e.evaluate? provider rule : Logged Event ε (Option Float))
      = ⟨.ok (some x), e.trace provider rule⟩ := by
  simp [evaluate?, trace, failure?_of_ok, hattempt]

/-- An evaluation without a value asks its questions and then records why it has none. -/
theorem evaluate?_of_error (hattempt : (e.attempt provider).outcome = .error reason)
    (rule : Option String) :
    (e.evaluate? provider rule : Logged Event ε (Option Float))
      = ⟨.ok none, e.trace provider rule⟩ := by
  simp [evaluate?, trace, failure?_of_error, hattempt]

/-- Evaluation does not fail.  It gives a number other than zero when the expression holds. -/
theorem outcome_evaluate? (e : Expression) (provider : Provider) (rule : Option String) :
    ∃ x, (e.evaluate? provider rule : Logged Event ε (Option Float)).outcome = .ok x ∧
      truthy (x.getD 0) = e.holds provider := by
  cases hattempt : (e.attempt provider).outcome with
  | ok x =>
      rw [evaluate?_of_ok hattempt, holds_of_ok hattempt]
      exact ⟨some x, rfl, rfl⟩
  | error reason =>
      have hzero : truthy 0 = false := by decide
      rw [evaluate?_of_error hattempt, holds_of_error hattempt]
      exact ⟨none, rfl, hzero⟩

theorem log_evaluate? (e : Expression) (provider : Provider) (rule : Option String) :
    (e.evaluate? provider rule : Logged Event ε (Option Float)).log = e.trace provider rule := by
  cases hattempt : (e.attempt provider).outcome with
  | ok x => rw [evaluate?_of_ok hattempt]
  | error reason => rw [evaluate?_of_error hattempt]

/-- The only diagnostic of an evaluation is that of its failure. -/
theorem diagnostics_evaluate? (e : Expression) (provider : Provider) (rule : Option String) :
    (e.evaluate? provider rule : Logged Event ε (Option Float)).diagnostics
      = (e.failure? provider rule).toList := by
  rw [Logged.diagnostics, log_evaluate?, filterMap_diagnostic?_trace]

theorem avoids_evaluate? (e : Expression) (provider : Provider) (rule : Option String)
    {code : DiagnosticCode} (hcode : .evaluationFailed ≠ code) :
    (e.evaluate? provider rule : Logged Event ε (Option Float)).Avoids code := by
  intro d hd
  rw [diagnostics_evaluate?, Option.mem_toList] at hd
  obtain ⟨reason, -, rfl⟩ := failure?_eq_some_iff.mp hd
  exact hcode

theorem outcome_evaluate (e : Expression) (provider : Provider) (rule : Option String) :
    ∃ x, (e.evaluate provider rule : Logged Event ε Float).outcome = .ok x ∧
      truthy x = e.holds provider := by
  obtain ⟨x, hx, htruthy⟩ := outcome_evaluate? (ε := ε) e provider rule
  exact ⟨x.getD 0, Logged.outcome_bind_eq_ok_iff.mpr ⟨x, hx, rfl⟩, htruthy⟩

theorem outcome_evaluate_of_ok (hattempt : (e.attempt provider).outcome = .ok x)
    (rule : Option String) : (e.evaluate provider rule : Logged Event ε Float).outcome = .ok x :=
  Logged.outcome_bind_eq_ok_iff.mpr ⟨some x, by rw [evaluate?_of_ok hattempt], rfl⟩

/-- Without a value it gives zero. -/
theorem outcome_evaluate_of_error (hattempt : (e.attempt provider).outcome = .error reason)
    (rule : Option String) : (e.evaluate provider rule : Logged Event ε Float).outcome = .ok 0 :=
  Logged.outcome_bind_eq_ok_iff.mpr ⟨none, by rw [evaluate?_of_error hattempt], rfl⟩

theorem log_evaluate (e : Expression) (provider : Provider) (rule : Option String) :
    (e.evaluate provider rule : Logged Event ε Float).log = e.trace provider rule := by
  obtain ⟨x, hx, -⟩ := outcome_evaluate? (ε := ε) e provider rule
  rw [evaluate, Logged.bind_of_ok hx, Logged.log_pure, List.append_nil, log_evaluate?]

theorem diagnostics_evaluate (e : Expression) (provider : Provider) (rule : Option String) :
    (e.evaluate provider rule : Logged Event ε Float).diagnostics
      = (e.failure? provider rule).toList := by
  rw [Logged.diagnostics, log_evaluate, filterMap_diagnostic?_trace]

theorem avoids_evaluate (e : Expression) (provider : Provider) (rule : Option String)
    {code : DiagnosticCode} (hcode : .evaluationFailed ≠ code) :
    (e.evaluate provider rule : Logged Event ε Float).Avoids code := by
  unfold evaluate
  rw [Logged.avoids_bind_pure_iff]
  exact avoids_evaluate? e provider rule hcode

end Expression

end Stylesheet
