import Stylesheet.Proofs.Expression
import Stylesheet.Rule.Resolve

/-!
# Selection of a branch

Branches are tried one after the other, and the first one that opens is taken: one that has a value
and whose condition holds.  What the conditions tried before it leave behind stays, and what is
taken is resolved for good.
-/

namespace Stylesheet

open Logged

/-- Whether a branch is taken when it is tried. -/
def Branch.opens (provider : Provider) (branch : Branch Value) : Bool :=
  !branch.value.isUndefined && branch.condition.holds provider

/-- A branch opens when it has a value and its condition comes to a number other than zero. -/
theorem Branch.opens_iff {provider : Provider} {branch : Branch Value} :
    branch.opens provider = true ↔ branch.value.isUndefined = false ∧
      ∃ x, (branch.condition.attempt provider).outcome = .ok x ∧ truthy x = true := by
  rw [opens, Bool.and_eq_true, Bool.not_eq_true']
  refine and_congr_right fun _ => ?_
  cases hattempt : (branch.condition.attempt provider).outcome with
  | ok x => simp [Expression.holds_of_ok hattempt]
  | error reason => simp [Expression.holds_of_error hattempt]

/-- Trying branches in order passes over some and takes the next. -/
structure Takes (provider : Provider) (passed : List (Branch Value)) (branch : Branch Value) :
    Prop where
  passes : ∀ other ∈ passed, other.opens provider = false
  opens : branch.opens provider = true

/-- Either one of some branches is taken or none of them opens. -/
theorem exists_takes_or_forall_not_opens (provider : Provider) (branches : List (Branch Value)) :
    (∃ passed branch rest, branches = passed ++ branch :: rest ∧ Takes provider passed branch) ∨
      ∀ branch ∈ branches, branch.opens provider = false := by
  cases hfound : branches.find? (·.opens provider) with
  | none =>
      right
      intro branch hbranch
      exact Bool.eq_false_iff.mpr (List.find?_eq_none.mp hfound branch hbranch)
  | some branch =>
      left
      obtain ⟨hopens, passed, rest, hsplit, hpassed⟩ := List.find?_eq_some_iff_append.mp hfound
      exact ⟨passed, branch, rest, hsplit,
        fun other hother => (Bool.not_eq_true' _).mp (hpassed other hother), hopens⟩

/-- The conditions that are evaluated when all of some branches are tried: those of the branches
that have a value. -/
def conditionsOf (branches : List (Branch Value)) : List Expression :=
  (branches.filter (!·.value.isUndefined)).map (·.condition)

theorem conditionsOf_append (earlier later : List (Branch Value)) :
    conditionsOf (earlier ++ later) = conditionsOf earlier ++ conditionsOf later := by
  simp [conditionsOf]

/-- What evaluating some conditions leaves behind. -/
def traceOf (provider : Provider) (rule : Option String) (conditions : List Expression) :
    List Event :=
  conditions.flatMap (·.trace provider rule)

variable {ε : Type} {provider : Provider} {rule : Option String}

theorem traceOf_append (earlier later : List Expression) :
    traceOf provider rule (earlier ++ later)
      = traceOf provider rule earlier ++ traceOf provider rule later :=
  List.flatMap_append

theorem filterMap_query?_traceOf (conditions : List Expression) :
    (traceOf provider rule conditions).filterMap Event.query?
      = conditions.flatMap fun condition => (condition.attempt provider).log := by
  simp only [traceOf, List.filterMap_flatMap, Expression.filterMap_query?_trace]

theorem filterMap_diagnostic?_traceOf (conditions : List Expression) :
    (traceOf provider rule conditions).filterMap Event.diagnostic?
      = conditions.filterMap (·.failure? provider rule) := by
  simp only [traceOf, List.filterMap_flatMap, Expression.filterMap_diagnostic?_trace]
  induction conditions with
  | nil => rfl
  | cons condition conditions ih =>
      rw [List.flatMap_cons, ih, List.filterMap_cons]
      cases condition.failure? provider rule <;> rfl

/-- Evaluating conditions records nothing but failures of evaluations. -/
theorem code_eq_of_mem_traceOf {conditions : List Expression} {d : Diagnostic}
    (hd : d ∈ (traceOf provider rule conditions).filterMap Event.diagnostic?) :
    d.code = .evaluationFailed := by
  rw [filterMap_diagnostic?_traceOf] at hd
  obtain ⟨condition, -, hfailure⟩ := List.mem_filterMap.mp hd
  obtain ⟨reason, -, rfl⟩ := Expression.failure?_eq_some_iff.mp hfailure
  rfl

/-- The conditions in front of a computation make no difference to whether it avoids a code other
than theirs. -/
theorem avoids_after_traceOf_iff {α : Type} {x : Logged Event ε α} {conditions : List Expression}
    {code : DiagnosticCode} (hcode : .evaluationFailed ≠ code) :
    (x.after (traceOf provider rule conditions)).Avoids code ↔ x.Avoids code := by
  unfold Avoids
  rw [diagnostics_after]
  constructor
  · intro hall d hd
    exact hall d (List.mem_append_right _ hd)
  · intro hx d hd
    rcases List.mem_append.mp hd with hd | hd
    · rw [code_eq_of_mem_traceOf hd]
      exact hcode
    · exact hx d hd

namespace Value

/-- What comes first is resolved if it opens; otherwise the rest is tried.  Either way the trace of
its condition is first, unless it has no value. -/
theorem resolveBranches_cons (branch : Branch Value) (rest : List (Branch Value)) :
    (resolveBranches provider rule (branch :: rest) : Logged Event ε Resolution)
      = (if branch.opens provider then branch.value.resolve provider rule
          else resolveBranches provider rule rest).after
        (traceOf provider rule (conditionsOf [branch])) := by
  rw [resolveBranches, Branch.opens]
  cases hvalue : branch.value.isUndefined with
  | true => simp [conditionsOf, hvalue, traceOf, after]
  | false =>
      obtain ⟨x, hx, htruthy⟩ := Expression.outcome_evaluate (ε := ε) branch.condition provider rule
      rw [if_neg Bool.false_ne_true, bind_eq_after hx, htruthy, Expression.log_evaluate]
      simp [conditionsOf, hvalue, traceOf]

/-- Branches that do not open leave the traces of their conditions, and the rest is tried. -/
theorem resolveBranches_append {passed : List (Branch Value)}
    (hpassed : ∀ branch ∈ passed, branch.opens provider = false) (rest : List (Branch Value)) :
    (resolveBranches provider rule (passed ++ rest) : Logged Event ε Resolution)
      = (resolveBranches provider rule rest).after
        (traceOf provider rule (conditionsOf passed)) := by
  induction passed with
  | nil => rfl
  | cons branch passed ih =>
      obtain ⟨hbranch, hpassed⟩ := List.forall_mem_cons.mp hpassed
      rw [List.cons_append, resolveBranches_cons, hbranch, if_neg Bool.false_ne_true, ih hpassed,
        after_after, ← traceOf_append, ← conditionsOf_append, List.singleton_append]

/-- When no branch opens, all conditions are tried and there is no match. -/
theorem resolveBranches_of_forall_not_opens {branches : List (Branch Value)}
    (hclosed : ∀ branch ∈ branches, branch.opens provider = false) :
    (resolveBranches provider rule branches : Logged Event ε Resolution)
      = after ⟨.ok .unavailable, [.reported (noMatch rule)]⟩
        (traceOf provider rule (conditionsOf branches)) := by
  have hnone : (resolveBranches provider rule [] : Logged Event ε Resolution)
      = ⟨.ok .unavailable, [.reported (noMatch rule)]⟩ := by
    rw [resolveBranches]
    rfl
  have hall : (resolveBranches provider rule (branches ++ []) : Logged Event ε Resolution) = _ :=
    resolveBranches_append hclosed []
  rwa [List.append_nil, hnone] at hall

end Value

/-- The branch that is taken is resolved, whatever comes after it, and its condition is the last one
that is tried. -/
theorem Takes.resolveBranches_eq {passed : List (Branch Value)} {branch : Branch Value}
    (htakes : Takes provider passed branch) (rest : List (Branch Value)) :
    (Value.resolveBranches provider rule (passed ++ branch :: rest) : Logged Event ε Resolution)
      = (branch.value.resolve provider rule).after
        (traceOf provider rule (conditionsOf (passed ++ [branch]))) := by
  rw [Value.resolveBranches_append htakes.passes, Value.resolveBranches_cons, htakes.opens,
    if_pos rfl, after_after, ← traceOf_append, conditionsOf_append]

theorem Takes.outcome_resolveBranches {passed : List (Branch Value)} {branch : Branch Value}
    (htakes : Takes provider passed branch) (rest : List (Branch Value)) :
    (Value.resolveBranches provider rule (passed ++ branch :: rest) :
      Logged Event ε Resolution).outcome = (branch.value.resolve provider rule).outcome := by
  rw [htakes.resolveBranches_eq, outcome_after]

/-- The condition of a branch that is taken has a value, so it records no failure. -/
theorem Takes.failures_eq {passed : List (Branch Value)} {branch : Branch Value}
    (htakes : Takes provider passed branch) :
    (conditionsOf (passed ++ [branch])).filterMap (·.failure? provider rule)
      = (conditionsOf passed).filterMap (·.failure? provider rule) := by
  obtain ⟨hvalue, x, hx, -⟩ := Branch.opens_iff.mp htakes.opens
  rw [conditionsOf_append, List.filterMap_append]
  simp [conditionsOf, hvalue, Expression.failure?_of_ok hx]

/-- A default makes a difference to the result alone. -/
theorem Value.resolveOr_eq (value : Value) (default : Option Plain) :
    (value.resolveOr provider rule default : Logged Event ε (Option Plain)) =
      ⟨(value.resolve provider rule : Logged Event ε Resolution).outcome.map (·.orDefault default),
        (value.resolve provider rule : Logged Event ε Resolution).log⟩ := by
  rw [resolveOr]
  cases houtcome : (value.resolve provider rule : Logged Event ε Resolution).outcome with
  | ok resolution =>
      rw [bind_of_ok houtcome, log_pure, List.append_nil]
      rfl
  | error e =>
      rw [bind_of_error houtcome]
      rfl

namespace Value

variable {e : Expression} {branches passed : List (Branch Value)} {branch : Branch Value}

theorem resolveOr_plain (p : Plain) (rule : Option String) (default : Option Plain) :
    ((plain p).resolveOr provider rule default : Logged Event ε (Option Plain))
      = ⟨.ok (some p), []⟩ := by
  rw [resolveOr_eq, resolve]
  rfl

theorem resolveOr_expression_of_ok {x : Float} (hattempt : (e.attempt provider).outcome = .ok x)
    (rule : Option String) (default : Option Plain) :
    ((expression e).resolveOr provider rule default : Logged Event ε (Option Plain))
      = ⟨.ok (some (.number (.real x))), e.trace provider rule⟩ := by
  rw [resolveOr_eq, resolve, Expression.evaluate?_of_ok hattempt, bind_of_ok rfl, log_pure,
    List.append_nil]
  rfl

theorem resolveOr_expression_of_error {reason : EvaluationFailure}
    (hattempt : (e.attempt provider).outcome = .error reason) (rule : Option String)
    (default : Option Plain) :
    ((expression e).resolveOr provider rule default : Logged Event ε (Option Plain))
      = ⟨.ok default, e.trace provider rule⟩ := by
  rw [resolveOr_eq, resolve, Expression.evaluate?_of_error hattempt, bind_of_ok rfl, log_pure,
    List.append_nil]
  rfl

/-- An expression as a value records nothing but its own failure. -/
theorem diagnostics_resolveOr_expression (e : Expression) (rule : Option String)
    (default : Option Plain) :
    ((expression e).resolveOr provider rule default : Logged Event ε (Option Plain)).diagnostics
      = (e.failure? provider rule).toList := by
  rw [diagnostics, ← Expression.filterMap_diagnostic?_trace]
  cases hattempt : (e.attempt provider).outcome with
  | ok x => rw [resolveOr_expression_of_ok hattempt]
  | error reason => rw [resolveOr_expression_of_error hattempt]

/-- A conditional value gives what its taken branch gives, after the questions and failures of the
conditions up to that branch. -/
theorem resolveOr_of_takes (htakes : Takes provider passed branch) (kind : Kind)
    (rest : List (Branch Value)) (rule : Option String) (default : Option Plain) :
    let run : Logged Event ε (Option Plain) :=
      (conditional kind (passed ++ branch :: rest)).resolveOr provider rule default
    let taken : Logged Event ε (Option Plain) := branch.value.resolveOr provider rule default
    run.outcome = taken.outcome ∧
      run.queries = ((conditionsOf (passed ++ [branch])).flatMap fun condition =>
        (condition.attempt provider).log) ++ taken.queries ∧
      run.diagnostics
        = (conditionsOf passed).filterMap (·.failure? provider rule) ++ taken.diagnostics := by
  have hrun : ((conditional kind (passed ++ branch :: rest)).resolveOr provider rule default :
      Logged Event ε (Option Plain)) = (branch.value.resolveOr provider rule default).after
        (traceOf provider rule (conditionsOf (passed ++ [branch]))) := by
    rw [resolveOr_eq, resolveOr_eq, resolve, htakes.resolveBranches_eq]
    rfl
  dsimp only
  rw [hrun, queries_after, diagnostics_after, filterMap_query?_traceOf,
    filterMap_diagnostic?_traceOf, htakes.failures_eq]
  exact ⟨rfl, rfl, rfl⟩

/-- A conditional value without a branch that opens gives the default and says so, after the
questions and failures of all conditions. -/
theorem resolveOr_of_forall_not_opens (hclosed : ∀ branch ∈ branches, branch.opens provider = false)
    (kind : Kind) (rule : Option String) (default : Option Plain) :
    let run : Logged Event ε (Option Plain) :=
      (conditional kind branches).resolveOr provider rule default
    run.outcome = .ok default ∧
      run.queries = ((conditionsOf branches).flatMap fun condition =>
        (condition.attempt provider).log) ∧
      run.diagnostics
        = (conditionsOf branches).filterMap (·.failure? provider rule) ++ [noMatch rule] := by
  have hrun : ((conditional kind branches).resolveOr provider rule default :
      Logged Event ε (Option Plain)) = after ⟨.ok default, [.reported (noMatch rule)]⟩
        (traceOf provider rule (conditionsOf branches)) := by
    rw [resolveOr_eq, resolve, resolveBranches_of_forall_not_opens hclosed]
    rfl
  dsimp only
  rw [hrun, queries_after, diagnostics_after, filterMap_query?_traceOf,
    filterMap_diagnostic?_traceOf]
  exact ⟨rfl, List.append_nil _, rfl⟩

/-- A conditional value takes the first branch that opens, and gives what that branch's value gives,
whatever it is; no condition behind it is evaluated and none of a branch without a value.  What is
recorded before are the failures of the conditions up to it, in order.  When no branch opens, all
failures are recorded and then that there was no match, and the default is given. -/
theorem resolveOr_conditional_first_match (kind : Kind) (branches : List (Branch Value))
    (provider : Provider) (rule : Option String) (default : Option Plain) :
    let run : Logged Event ε (Option Plain) :=
      (conditional kind branches).resolveOr provider rule default
    ((∃ passed branch rest, branches = passed ++ branch :: rest ∧ Takes provider passed branch ∧
        let taken : Logged Event ε (Option Plain) := branch.value.resolveOr provider rule default
        run.outcome = taken.outcome ∧
        run.queries = ((conditionsOf (passed ++ [branch])).flatMap fun condition =>
          (condition.attempt provider).log) ++ taken.queries ∧
        run.diagnostics
          = (conditionsOf passed).filterMap (·.failure? provider rule) ++ taken.diagnostics) ∨
      (∀ branch ∈ branches, branch.opens provider = false) ∧
        run.outcome = .ok default ∧
        run.queries = ((conditionsOf branches).flatMap fun condition =>
          (condition.attempt provider).log) ∧
        run.diagnostics
          = (conditionsOf branches).filterMap (·.failure? provider rule) ++ [noMatch rule]) ∧
    (∀ branch : Branch Value, branch.opens provider = true ↔ branch.value.isUndefined = false ∧
      ∃ x, (branch.condition.attempt provider).outcome = .ok x ∧ truthy x = true) ∧
    (∀ x : Float, x.isNaN = true → truthy x = true) ∧
    (∀ (condition : Expression) (d : Diagnostic), condition.failure? provider rule = some d →
      d.code = .evaluationFailed ∧ d.rule = rule) ∧
    (noMatch rule).code = .noMatch ∧ (noMatch rule).severity = .info := by
  refine ⟨?_, fun branch => Branch.opens_iff, fun x => truthy_of_isNaN, ?_, rfl, rfl⟩
  · rcases exists_takes_or_forall_not_opens provider branches with
      ⟨passed, branch, rest, rfl, htakes⟩ | hclosed
    · have hrun := resolveOr_of_takes (ε := ε) htakes kind rest rule default
      exact .inl ⟨passed, branch, rest, rfl, htakes, hrun⟩
    · exact .inr ⟨hclosed, resolveOr_of_forall_not_opens hclosed kind rule default⟩
  · intro condition d hd
    obtain ⟨reason, -, rfl⟩ := Expression.failure?_eq_some_iff.mp hd
    exact ⟨rfl, rfl⟩

end Value

end Stylesheet
