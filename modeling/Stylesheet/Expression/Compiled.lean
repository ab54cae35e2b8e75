import Stylesheet.Event
import Stylesheet.Expression.Evaluate
import Stylesheet.Expression.Lexer
import Stylesheet.Expression.Parser
import Stylesheet.Proofs.Grammar.Language
import Stylesheet.Proofs.Grammar.Soundness

/-!
# Compiled expressions

Compiling never fails: a text that is no expression keeps the reason, and gives it as the reason
whenever it is evaluated.
-/

namespace Stylesheet

/-- Why a text is no expression. -/
inductive CompileError where
  | lexical (e : LexicalError)
  | malformed (e : SyntaxError)
  | tooDeep

def CompileError.message : CompileError → String
  | lexical e => e.message
  | malformed e => e.message
  | tooDeep => "Expression is nested too deeply"

def Expr.ofText (source : String) : Except CompileError Expr :=
  match tokenize source with
  | .error e => .error (.lexical e)
  | .ok tokens => match Expr.ofTokens tokens with
    | .ok tree => .ok tree
    | .error (.malformed e) => .error (.malformed e)
    | .error .tooDeep => .error .tooDeep

/-- A text has a tree when its tokens have one. -/
theorem Expr.ofText_eq_ok_iff {source : String} {tree : Expr} :
    ofText source = .ok tree ↔
      ∃ tokens, tokenize source = .ok tokens ∧ ofTokens tokens = .ok tree := by
  unfold ofText
  cases tokenize source with
  | error e => simp
  | ok tokens =>
      simp only [Except.ok.injEq, exists_eq_left']
      split <;> simp [*]

/-- The grammar derives the tree of a text from its tokens. -/
theorem Expr.derives_of_ofText {source : String} {tree : Expr} (htree : ofText source = .ok tree) :
    ∃ tokens, tokenize source = .ok tokens ∧ Derives .expression (beforeFinish tokens) tree := by
  obtain ⟨tokens, htokens, hparse⟩ := ofText_eq_ok_iff.mp htree
  exact ⟨tokens, htokens, Parser.derives_of_parseWithin hparse⟩

/-- A compiled expression: its text, and its tree or why it has none. -/
structure Expression where
  source : String
  tree : Except CompileError Expr
  /-- An evaluation of the tree gives a value or the reason why there is none. -/
  isSafe : ∀ parsed, tree = .ok parsed → parsed.IsSafe

/-- Why an expression has no value. -/
inductive EvaluationFailure where
  | notCompiled (e : CompileError)
  | failed (e : EvaluationError)

def EvaluationFailure.message : EvaluationFailure → String
  | notCompiled e => e.message
  | failed e => e.message

namespace Expression

def compile (source : String) : Expression where
  source := source
  tree := Expr.ofText source
  isSafe _ hparsed :=
    let ⟨_, _, hderives⟩ := Expr.derives_of_ofText hparsed
    hderives.inLanguage.isSafe

def error? (e : Expression) : Option CompileError :=
  match e.tree with
  | .error error => some error
  | .ok _ => none

/-- The expression as a literal. -/
def text (e : Expression) : String :=
  "$\x7b" ++ e.source ++ "\x7d"

/-- Evaluate; the log holds the questions that were put to the provider. -/
def attempt (e : Expression) (provider : Provider) : Logged Query EvaluationFailure Float :=
  match e.tree with
  | .error error => Logged.fail (.notCompiled error)
  | .ok tree =>
      let evaluation := tree.evaluate provider
      ⟨evaluation.outcome.mapError .failed, evaluation.log⟩

/-- The question whose lasting answer an expression has as its value, if the value is a NaN. -/
def kept? (e : Expression) (provider : Provider) : Option Query :=
  match e.tree, (e.attempt provider).outcome with
  | .ok tree, .ok x =>
      if x.isNaN then (tree.origin? provider Expr.depthLimit).filter provider.keeps else none
  | _, _ => none

/-- Whether two expressions are equal: their texts, and their trees or why they have none. -/
def same (a b : Expression) : Bool :=
  a.source == b.source && match a.tree, b.tree with
    | .ok tree, .ok tree' => tree.same tree'
    | .error e, .error e' => e.message == e'.message
    | _, _ => false

def failure (e : Expression) (reason : EvaluationFailure) (rule : Option String) : Diagnostic where
  code := .evaluationFailed
  message := s!"Unable to evaluate expression '{e.source}': {reason.message}"
  rule := rule

/-- Evaluate and record a failure, which gives no value. -/
def evaluate? {ε : Type} (e : Expression) (provider : Provider) (rule : Option String) :
    Logged Event ε (Option Float) :=
  let attempt := e.attempt provider
  let asked := attempt.log.map Event.asked
  match attempt.outcome with
  | .ok value => ⟨.ok (some value), asked⟩
  | .error reason => ⟨.ok none, asked ++ [.reported (e.failure reason rule)]⟩

/-- Evaluate and record a failure, which gives zero. -/
def evaluate {ε : Type} (e : Expression) (provider : Provider) (rule : Option String) :
    Logged Event ε Float := do
  return (← e.evaluate? provider rule).getD 0

def compileFailure (e : Expression) (error : CompileError) (rule : Option String) :
    Diagnostic where
  code := .compileFailed
  message := s!"Expression '{e.source}' does not compile: {error.message}"
  rule := rule

def compileReporting {ε : Type} (source : String) (rule : Option String) :
    Logged Event ε Expression := do
  let e := compile source
  match e.tree with
  | .ok _ => return e
  | .error error =>
      report (e.compileFailure error rule)
      return e

end Expression

end Stylesheet
