import Stylesheet.Proofs.Recorder
import Stylesheet.Sheet

/-!
# Reads that hand on a sink

Evaluating, resolving and reading as they run with a sink.  Each part is what becomes of its
counterpart that keeps a log when that runs with the sink.
-/

namespace Stylesheet

open Logged

namespace Recorder

variable {ε α : Type}

def evaluate? (e : Expression) (provider : Provider) (rule : Option String) :
    Recorder ε (Option Float) :=
  match (e.attempt provider).outcome with
  | .ok value => return some value
  | .error reason => do
      record (e.failure reason rule)
      return none

theorem recorded_evaluate? (e : Expression) (provider : Provider) (rule : Option String) :
    (e.evaluate? provider rule : Logged Event ε (Option Float)).recorded
      = evaluate? e provider rule := by
  cases hattempt : (e.attempt provider).outcome with
  | ok value =>
      simp only [Expression.evaluate?, evaluate?, hattempt]
      exact recorded_asked (some value) _
  | error reason =>
      let asked : Logged Event ε Unit := ⟨.ok (), (e.attempt provider).log.map .asked⟩
      simp only [Expression.evaluate?, evaluate?, hattempt]
      show (do asked; report (e.failure reason rule); return none :
        Logged Event ε (Option Float)).recorded = _
      simp only [recorded_bind, recorded_report, recorded_pure]
      rw [recorded_asked, pure_bind]

def evaluate (e : Expression) (provider : Provider) (rule : Option String) :
    Recorder ε Float := do
  return (← evaluate? e provider rule).getD 0

theorem recorded_evaluate (e : Expression) (provider : Provider) (rule : Option String) :
    (e.evaluate provider rule : Logged Event ε Float).recorded = evaluate e provider rule := by
  simp only [Expression.evaluate, evaluate, recorded_bind, recorded_pure, recorded_evaluate?]

mutual

def resolve (provider : Provider) (rule : Option String) : Value → Recorder ε Resolution
  | .undefined => return .undefined
  | .plain value => return .value value
  | .expression e => do
      match ← evaluate? e provider rule with
      | some x => return .value (.number (.real x))
      | none => return .unavailable
  | .conditional _ branches => resolveBranches provider rule branches

/-- Resolve the first branch that has a value and whose condition holds. -/
def resolveBranches (provider : Provider) (rule : Option String) :
    List (Branch Value) → Recorder ε Resolution
  | [] => do
      record (noMatch rule)
      return .unavailable
  | branch :: rest =>
      if branch.value.isUndefined then
        resolveBranches provider rule rest
      else do
        if truthy (← evaluate branch.condition provider rule) then
          resolve provider rule branch.value
        else
          resolveBranches provider rule rest

end

mutual

theorem recorded_resolve (provider : Provider) (rule : Option String) : ∀ value : Value,
    (value.resolve provider rule : Logged Event ε Resolution).recorded = resolve provider rule value
  | .undefined => by
      rw [Value.resolve, resolve, recorded_pure]
  | .plain value => by
      rw [Value.resolve, resolve, recorded_pure]
  | .expression e => by
      rw [Value.resolve, resolve, recorded_bind, recorded_evaluate?]
      congr 1
      funext x?
      cases x? <;> exact recorded_pure _
  | .conditional _ branches => by
      rw [Value.resolve, resolve]
      exact recorded_resolveBranches provider rule branches

theorem recorded_resolveBranches (provider : Provider) (rule : Option String) :
    ∀ branches : List (Branch Value),
      (Value.resolveBranches provider rule branches : Logged Event ε Resolution).recorded
        = resolveBranches provider rule branches
  | [] => by
      rw [Value.resolveBranches, resolveBranches, recorded_bind, recorded_report]
      simp only [recorded_pure]
  | ⟨source, condition, value⟩ :: rest => by
      have hvalue := recorded_resolve provider rule value
      have hrest := recorded_resolveBranches provider rule rest
      rw [Value.resolveBranches, resolveBranches]
      split
      · exact hrest
      · rw [recorded_bind, recorded_evaluate]
        congr 1
        funext x
        split
        · exact hvalue
        · exact hrest

end

def content (provider : Provider) (rule : Rule) : Recorder ε Resolution :=
  match rule.value with
  | .conditional _ branches => resolveBranches provider (some rule.key) branches
  | .expression e => do
      match ← evaluate? e provider (some rule.key) with
      | some x => return .value (.number (.real x))
      | none => return .unavailable
  | .plain value => return .value value
  | .undefined => return .undefined

theorem content_eq_resolve (provider : Provider) (rule : Rule) :
    (content provider rule : Recorder ε Resolution)
      = resolve provider (some rule.key) rule.value := by
  unfold content resolve
  cases rule.value <;> rfl

theorem recorded_content (provider : Provider) (rule : Rule) :
    (rule.content provider : Logged Event ε Resolution).recorded = content provider rule := by
  rw [Rule.content_eq_resolve, content_eq_resolve, recorded_resolve]

def read? (accessor : Accessor α) (provider : Provider) (rule : Rule) :
    Recorder ReadError (Option α) :=
  if rule.value.kind ∈ accessor.kinds then do
    match ← content provider rule with
    | .value plain =>
        match ← liftExcept (accessor.convert plain) with
        | some result => return some result
        | none => do
            record (accessor.mismatch rule plain.typeName)
            return none
    | .undefined | .unavailable => return none
  else do
    record (accessor.mismatch rule rule.value.kind.text)
    return none

theorem recorded_read? (accessor : Accessor α) (provider : Provider) (rule : Rule) :
    (accessor.read? provider rule).recorded = read? accessor provider rule := by
  unfold Accessor.read? read?
  split
  · rw [recorded_bind, recorded_content]
    congr 1
    funext resolution
    cases resolution with
    | undefined | unavailable => exact recorded_pure none
    | value plain =>
        dsimp only
        rw [recorded_bind, recorded_ofExcept]
        congr 1
        funext result?
        cases result? with
        | some result => exact recorded_pure (some result)
        | none => simp only [recorded_bind, recorded_report, recorded_pure]
  · simp only [recorded_bind, recorded_report, recorded_pure]

def read (accessor : Accessor α) (provider : Provider) (rule : Rule) (default : α) :
    Recorder ReadError α := do
  return (← read? accessor provider rule).getD default

theorem recorded_read (accessor : Accessor α) (provider : Provider) (rule : Rule) (default : α) :
    (accessor.read provider rule default).recorded = read accessor provider rule default := by
  simp only [Accessor.read, read, recorded_bind, recorded_pure, recorded_read?]

def resolveRule? (provider : Provider) (rule : Rule) : Recorder ReadError (Option Plain) :=
  match rule.value.kind with
  | .number | .expression => do
      return some (.number (.real (← read Accessor.float provider rule 0)))
  | .boolean => do return some (.boolean (← read Accessor.boolean provider rule false))
  | .string => do return some (.string (← read Accessor.string provider rule ""))
  | .font => do return (← read? Accessor.font provider rule).map .font
  | .color => do return (← read? Accessor.color provider rule).map .color
  | .undefined => return none

/-- Read a rule as its own kind suggests, with a default in place of a missing value. -/
def resolveRule (provider : Provider) (rule : Rule) (default : Option Plain) :
    Recorder ReadError (Option Plain) := do
  return (← resolveRule? provider rule).or default

theorem recorded_resolveRule (provider : Provider) (rule : Rule) (default : Option Plain) :
    (rule.resolve provider default).recorded = resolveRule provider rule default := by
  have hrule : (rule.resolve? provider).recorded = resolveRule? provider rule := by
    unfold Rule.resolve? resolveRule?
    cases rule.value.kind <;>
      simp only [recorded_bind, recorded_pure, recorded_read, recorded_read?]
  simp only [Rule.resolve, resolveRule, recorded_bind, recorded_pure, hrule]

def readIn? (sheet : Sheet) (accessor : Accessor α) (provider : Provider) (style name : String) :
    Recorder ReadError (Option α) :=
  match sheet.rule? style name with
  | some rule => read? accessor provider rule
  | none => do
      record (Sheet.unknownRule style name)
      return none

theorem recorded_readIn? (sheet : Sheet) (accessor : Accessor α) (provider : Provider)
    (style name : String) :
    (sheet.read? accessor provider style name).recorded
      = readIn? sheet accessor provider style name := by
  unfold Sheet.read? readIn?
  cases sheet.rule? style name with
  | some rule => exact recorded_read? accessor provider rule
  | none => simp only [recorded_bind, recorded_report, recorded_pure]

def readIn (sheet : Sheet) (accessor : Accessor α) (provider : Provider) (style name : String)
    (default : α) : Recorder ReadError α := do
  return (← readIn? sheet accessor provider style name).getD default

theorem recorded_readIn (sheet : Sheet) (accessor : Accessor α) (provider : Provider)
    (style name : String) (default : α) :
    (sheet.read accessor provider style name default).recorded
      = readIn sheet accessor provider style name default := by
  simp only [Sheet.read, readIn, recorded_bind, recorded_pure, recorded_readIn?]

end Recorder

end Stylesheet
