import Stylesheet.Proofs.Expression
import Stylesheet.Proofs.Expression.Fault
import Stylesheet.Proofs.Grammar.Recognition

/-!
# Failures of compiled expressions

A text that does not compile is one that the lexer refuses, one that the grammar does not derive, or
a long one that is nested too deeply.  What compiles is a tree of the language, and it fails for a
cause in one of its nodes or because it is too deep itself.  A failure of any kind is a zero and one
diagnostic.
-/

namespace Stylesheet

/-- `e.ArisesIn source`: a text does not compile for a reason of its own.  Only a long text can be
nested too deeply. -/
inductive CompileError.ArisesIn (source : String) : CompileError → Prop where
  | lexical {e : LexicalError} (hrefused : tokenize source = .error e) : ArisesIn source (.lexical e)
  | malformed {tokens : List Token} {e : SyntaxError} (htokens : tokenize source = .ok tokens)
      (hnone : ¬ ∃ tree, Derives .expression (beforeFinish tokens) tree) :
      ArisesIn source (.malformed e)
  | tooDeep {tokens : List Token} (htokens : tokenize source = .ok tokens)
      (hlong : Parser.nestingLimit < 9 * tokens.length + 9) : ArisesIn source .tooDeep

/-- `tree.ReadFrom source`: the grammar derives a tree of the language from the tokens of a text. -/
structure Expr.ReadFrom (source : String) (tree : Expr) : Prop where
  derived : ∃ tokens, tokenize source = .ok tokens ∧ Derives .expression (beforeFinish tokens) tree
  inLanguage : tree.InLanguage

theorem Expr.readFrom_of_ofText {source : String} {tree : Expr}
    (htree : ofText source = .ok tree) : tree.ReadFrom source := by
  obtain ⟨tokens, htokens, hderives⟩ := derives_of_ofText htree
  exact ⟨⟨tokens, htokens, hderives⟩, hderives.inLanguage⟩

/-- A text that has no tree has a reason for it. -/
theorem CompileError.arisesIn_of_ofText {source : String} {e : CompileError}
    (herror : Expr.ofText source = .error e) : e.ArisesIn source := by
  unfold Expr.ofText Expr.ofTokens at herror
  cases htokens : tokenize source with
  | error refused =>
      rw [htokens] at herror
      cases herror
      exact .lexical htokens
  | ok tokens =>
      simp only [htokens] at herror
      cases hparse : Parser.parseWithin Parser.nestingLimit tokens with
      | ok tree =>
          rw [hparse] at herror
          cases herror
      | error failure =>
          rw [hparse] at herror
          cases failure with
          | malformed reason =>
              cases herror
              refine .malformed htokens ?_
              -- a tree that the grammar derives would have been found within the limit
              rintro ⟨tree, hderives⟩
              have hread := Parser.parseWithin_of_derives hderives Parser.nestingLimit
              rw [hparse] at hread
              rcases hread with hread | hread <;> cases hread
          | tooDeep =>
              cases herror
              refine .tooDeep htokens (Nat.lt_of_not_le fun hbudget => ?_)
              exact Parser.parseWithin_ne_tooDeep hbudget hparse

/-- `reason.ArisesIn provider e`: an expression has no value because it did not compile, or because
an evaluation of its tree comes to the cause of an error. -/
inductive EvaluationFailure.ArisesIn (provider : Provider) (e : Expression) :
    EvaluationFailure → Prop where
  | notCompiled {error : CompileError} (htree : e.tree = .error error) :
      ArisesIn provider e (.notCompiled error)
  | failed {error : EvaluationError} {tree : Expr} (htree : e.tree = .ok tree)
      (hfails : tree.FailsWith provider Expr.depthLimit error) : ArisesIn provider e (.failed error)

namespace Expression

variable {ε : Type} {e : Expression} {provider : Provider}

theorem outcome_attempt_of_error {error : CompileError} (htree : e.tree = .error error) :
    (e.attempt provider).outcome = .error (.notCompiled error) := by
  rw [attempt, htree]
  rfl

theorem outcome_attempt_of_tree {tree : Expr} (htree : e.tree = .ok tree) :
    (e.attempt provider).outcome = (tree.evaluate provider).outcome.mapError .failed := by
  rw [attempt, htree]

/-- Compiling gives either a tree that the text is read as, and then the expression has the value of
the tree, or an error of the text's own, and then it has no value. -/
theorem compile_cases (source : String) (provider : Provider) :
    (∃ tree, (compile source).tree = .ok tree ∧ (compile source).error? = none ∧
        tree.ReadFrom source ∧
        ((compile source).attempt provider).outcome
          = (tree.evaluate provider).outcome.mapError .failed) ∨
      ∃ error, (compile source).tree = .error error ∧ (compile source).error? = some error ∧
        error.ArisesIn source ∧
        ((compile source).attempt provider).outcome = .error (.notCompiled error) := by
  cases htree : (compile source).tree with
  | ok tree =>
      refine .inl ⟨tree, rfl, by rw [error?, htree], Expr.readFrom_of_ofText htree, ?_⟩
      exact outcome_attempt_of_tree htree
  | error error =>
      refine .inr ⟨error, rfl, by rw [error?, htree], CompileError.arisesIn_of_ofText htree, ?_⟩
      exact outcome_attempt_of_error htree

/-- An expression has no value for the reasons that arise in it, and for no others. -/
theorem outcome_attempt_eq_error_iff {reason : EvaluationFailure} :
    (e.attempt provider).outcome = .error reason ↔ reason.ArisesIn provider e := by
  constructor
  · intro hattempt
    cases htree : e.tree with
    | error error =>
        cases (outcome_attempt_of_error htree).symm.trans hattempt
        exact .notCompiled htree
    | ok tree =>
        rw [outcome_attempt_of_tree htree] at hattempt
        cases houtcome : (tree.evaluate provider).outcome with
        | ok x =>
            rw [houtcome] at hattempt
            cases hattempt
        | error error =>
            rw [houtcome] at hattempt
            cases hattempt
            exact .failed htree (Expr.outcome_evaluateWithin_eq_error_iff.mp houtcome)
  · intro harises
    cases harises with
    | notCompiled htree => exact outcome_attempt_of_error htree
    | failed htree hfails =>
        rw [outcome_attempt_of_tree htree, Expr.evaluate,
          Expr.outcome_evaluateWithin_eq_error_iff.mpr hfails]
        rfl

/-- No evaluation of an expression breaks down. -/
theorem outcome_attempt_ne_other (e : Expression) (provider : Provider) :
    (e.attempt provider).outcome ≠ .error (.failed (.foreign .other)) := by
  intro hattempt
  cases outcome_attempt_eq_error_iff.mp hattempt with
  | failed htree hfails =>
      cases hfails with
      | cause hmeets hcause =>
          cases hcause
          obtain ⟨depth, -, hpart⟩ := hmeets.exists_hasPart
          exact e.isSafe _ htree depth hpart

/-- Evaluating gives the value and records nothing, or it gives zero and records the one failure. -/
theorem evaluate_cases (e : Expression) (provider : Provider) (rule : Option String) :
    let run : Logged Event ε Float := e.evaluate provider rule
    (∃ x, (e.attempt provider).outcome = .ok x ∧ run.outcome = .ok x ∧ run.diagnostics = []) ∨
      ∃ reason, (e.attempt provider).outcome = .error reason ∧
        run.outcome = .ok 0 ∧ run.diagnostics = [e.failure reason rule] ∧
        (e.failure reason rule).code = .evaluationFailed ∧
        (e.failure reason rule).rule = rule := by
  dsimp only
  rw [diagnostics_evaluate]
  cases hattempt : (e.attempt provider).outcome with
  | ok x =>
      rw [failure?_of_ok hattempt]
      exact .inl ⟨x, rfl, outcome_evaluate_of_ok hattempt rule, rfl⟩
  | error reason =>
      rw [failure?_of_error hattempt]
      exact .inr ⟨reason, rfl, outcome_evaluate_of_error hattempt rule, rfl, rfl, rfl⟩

/-- Compiling a text gives either a tree that the text is read as, whose value is that of the
expression, or an error of the text's own, without a value.  There is no value for the reasons that
arise in the expression and for no others.  Evaluating gives a number and records nothing, or there
is such a reason: then it gives zero and records just this one failure, under the rule's key. -/
theorem evaluate_compile_reports_failure_once (source : String) (provider : Provider)
    (rule : Option String) :
    let e := compile source
    let run : Logged Event ε Float := e.evaluate provider rule
    e.source = source ∧
    ((∃ tree, e.tree = .ok tree ∧ e.error? = none ∧ tree.ReadFrom source ∧
        (e.attempt provider).outcome = (tree.evaluate provider).outcome.mapError .failed) ∨
      ∃ error, e.tree = .error error ∧ e.error? = some error ∧ error.ArisesIn source ∧
        (e.attempt provider).outcome = .error (.notCompiled error)) ∧
    (∀ reason, (e.attempt provider).outcome = .error reason ↔ reason.ArisesIn provider e) ∧
    ((∃ x, (e.attempt provider).outcome = .ok x ∧ run.outcome = .ok x ∧ run.diagnostics = []) ∨
      ∃ reason, (e.attempt provider).outcome = .error reason ∧
        run.outcome = .ok 0 ∧ run.diagnostics = [e.failure reason rule] ∧
        (e.failure reason rule).code = .evaluationFailed ∧
        (e.failure reason rule).rule = rule) :=
  ⟨rfl, compile_cases source provider, fun _ => outcome_attempt_eq_error_iff,
    evaluate_cases (compile source) provider rule⟩

/-- A provider that knows no device and no variables. -/
def blindProvider : Provider where
  symbol _ := .error "no screen"
  named _ := .ok none

/-- Texts that the lexer or the grammar refuses, and expressions without a value. -/
def failingTexts : List String :=
  ["1 @ 2", "1 +", "unknownSymbol + 1", "idiom", "1 / 0", "1 % 0", "nope(1)", "abs(1, 2)",
    "sqrt(-1)"]

theorem attempt_failingTexts :
    ∀ source ∈ failingTexts,
      ((compile source).attempt blindProvider).outcome.isOk = false := by
  decide +kernel

/-- Each of these texts gives zero and one diagnostic under the key of the rule; the height of a
phone is a number and needs none. -/
theorem evaluate_compile_reports_failure_once_width :
    (∀ source ∈ failingTexts, ∃ reason, reason.ArisesIn blindProvider (compile source) ∧
      ((compile source).evaluate blindProvider (some "width") :
        Logged Event Empty Float).outcome = .ok 0 ∧
      ((compile source).evaluate blindProvider (some "width") :
        Logged Event Empty Float).diagnostics
          = [(compile source).failure reason (some "width")]) ∧
    ((compile "iPhone8Plus.height").evaluate blindProvider (some "width") :
      Logged Event Empty Float).outcome = .ok 736 ∧
    ((compile "iPhone8Plus.height").evaluate blindProvider (some "width") :
      Logged Event Empty Float).diagnostics = [] := by
  refine ⟨fun source hsource => ?_, ?_⟩
  · have hfails := attempt_failingTexts source hsource
    obtain ⟨-, -, harises, hrun⟩ := evaluate_compile_reports_failure_once (ε := Empty) source
      blindProvider (some "width")
    rcases hrun with ⟨x, hattempt, -⟩ | ⟨reason, hattempt, houtcome, hdiagnostics, -⟩
    · rw [hattempt] at hfails
      cases hfails
    · exact ⟨reason, (harises reason).mp hattempt, houtcome, hdiagnostics⟩
  · have hvalue : ((compile "iPhone8Plus.height").attempt blindProvider).outcome
        = .ok 736 := rfl
    obtain ⟨-, -, -, hrun⟩ := evaluate_compile_reports_failure_once (ε := Empty)
      "iPhone8Plus.height" blindProvider (some "width")
    rcases hrun with ⟨x, hattempt, houtcome, hdiagnostics⟩ | ⟨reason, hattempt, -⟩
    · cases hvalue.symm.trans hattempt
      exact ⟨houtcome, hdiagnostics⟩
    · cases hvalue.symm.trans hattempt

end Expression

end Stylesheet
