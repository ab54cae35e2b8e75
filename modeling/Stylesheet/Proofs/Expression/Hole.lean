import Stylesheet.Environment.Snapshot
import Stylesheet.Proofs.Expression.Cause

/-!
# Trees with a hole

Evaluation is lazy: a logical operator may leave its right operand alone, one of two alternatives is
never looked at, a call that cannot be made leaves all its arguments alone, and a failure ends
everything.  So a tree may have a place that evaluation does not get to, and what stands there makes
no difference, be it a node that has no value at all.
-/

namespace Stylesheet

open Logged

namespace Logged

variable {ω ε α β : Type} {e : ε}

/-- Two computations are the same unless the first ends with a given error. -/
def SameUnless (e : ε) (x y : Logged ω ε α) : Prop :=
  x.outcome ≠ .error e → y = x

theorem SameUnless.refl (x : Logged ω ε α) : SameUnless e x x :=
  fun _ => rfl

/-- In sequence, what the first parts hand on is the same, and so are the second parts then. -/
theorem SameUnless.bind {x y : Logged ω ε α} {f g : α → Logged ω ε β} (hxy : SameUnless e x y)
    (hfg : ∀ a, SameUnless e (f a) (g a)) : SameUnless e (x >>= f) (y >>= g) := by
  intro hends
  cases hx : x.outcome with
  | error e' =>
      rw [bind_of_error hx] at hends
      have hother : x.outcome ≠ .error e := by
        rw [hx]
        rintro ⟨⟩
        exact hends rfl
      rw [hxy hother, bind_of_error hx, bind_of_error hx]
  | ok a =>
      rw [bind_of_ok hx] at hends
      have hsame : y = x := hxy (by rw [hx]; nofun)
      have hsameNext : g a = f a := hfg a hends
      rw [hsame, bind_of_ok hx, bind_of_ok hx, hsameNext]

end Logged

namespace Expr

/-- A tree with one hole in it: under an operator, in one of the three places of a conditional or
among the arguments of a call, at any depth. -/
inductive Context where
  | hole
  | operand (op : UnaryOperator) (inner : Context)
  | left (op : BinaryOperator) (inner : Context) (right : Expr)
  | right (op : BinaryOperator) (left : Expr) (inner : Context)
  | condition (inner : Context) (whenTrue whenFalse : Expr)
  | whenTrue (condition : Expr) (inner : Context) (whenFalse : Expr)
  | whenFalse (condition whenTrue : Expr) (inner : Context)
  | argument (function : String) (before : List Expr) (inner : Context) (after : List Expr)

/-- The tree with another one in its hole. -/
def Context.fill (tree : Expr) : Context → Expr
  | .hole => tree
  | .operand op inner => .unary op (inner.fill tree)
  | .left op inner other => .binary op (inner.fill tree) other
  | .right op other inner => .binary op other (inner.fill tree)
  | .condition inner yes no => .conditional (inner.fill tree) yes no
  | .whenTrue test inner no => .conditional test (inner.fill tree) no
  | .whenFalse test yes inner => .conditional test yes (inner.fill tree)
  | .argument function before inner after => .call function (before ++ inner.fill tree :: after)

/-- A node that always fails: one of a kind that the evaluator does not know. -/
def unknownNode (kind : String) : Expr :=
  .foreign (.node kind)

/-- The error that such a node fails with. -/
def unknownNodeError (kind : String) : EvaluationError :=
  .foreign (.node kind)

variable {provider : Provider} {kind : String} {α : Type}

theorem evaluateWithin_unknownNode (kind : String) (budget : Nat) :
    ((unknownNode kind).evaluateWithin provider (budget + 1)).outcome
      = .error (unknownNodeError kind) := by
  rw [unknownNode, evaluateWithin]
  rfl

/-- Without a budget no tree is looked at. -/
theorem evaluateWithin_zero (tree : Expr) :
    tree.evaluateWithin provider 0 = Logged.fail .tooDeep := by
  cases tree with
  | binary op left right =>
      by_cases hand : op = .and
      · rw [hand, evaluateWithin]
        rfl
      · by_cases hor : op = .or
        · rw [hor, evaluateWithin]
          rfl
        · rw [evaluateWithin_strict hand hor]
          rfl
  | number | boolean | name | unary | conditional | call | foreign =>
      rw [evaluateWithin]
      rfl

end Expr

/-- Evaluations one level down are the same under the level above. -/
theorem Logged.SameUnless.nested {α : Type} {e : EvaluationError}
    {inner inner' : Nat → Evaluation α}
    (hinner : ∀ rest, SameUnless e (inner rest) (inner' rest)) (budget : Nat) :
    SameUnless e (nested budget inner) (nested budget inner') := by
  cases budget with
  | zero => exact .refl _
  | succ rest => exact hinner rest

namespace Expr

variable {provider : Provider} {kind : String} {e : EvaluationError}

/-- Of a list of arguments, one may be replaced. -/
theorem sameUnless_evaluateAllWithin {argument argument' : Expr} {budget : Nat}
    (hargument : SameUnless e (argument.evaluateWithin provider budget)
      (argument'.evaluateWithin provider budget)) (before after : List Expr) :
    SameUnless e (evaluateAllWithin provider budget (before ++ argument :: after))
      (evaluateAllWithin provider budget (before ++ argument' :: after)) := by
  induction before with
  | nil =>
      rw [List.nil_append, List.nil_append, evaluateAllWithin, evaluateAllWithin]
      exact hargument.bind fun value => .refl _
  | cons first before ih =>
      rw [List.cons_append, List.cons_append, evaluateAllWithin, evaluateAllWithin]
      exact (SameUnless.refl _).bind fun value => ih.bind fun values => .refl _

/-- Operators with two operands hand on what their operands do. -/
theorem sameUnless_binary {left left' right right' : Expr} (op : BinaryOperator)
    (hleft : ∀ budget, SameUnless e (left.evaluateWithin provider budget)
      (left'.evaluateWithin provider budget))
    (hright : ∀ budget, SameUnless e (right.evaluateWithin provider budget)
      (right'.evaluateWithin provider budget)) (budget : Nat) :
    SameUnless e ((Expr.binary op left right).evaluateWithin provider budget)
      ((Expr.binary op left' right').evaluateWithin provider budget) := by
  by_cases hand : op = .and
  · subst hand
    rw [evaluateWithin, evaluateWithin]
    refine .nested (fun rest => (hleft rest).bind fun x => ?_) budget
    split
    · exact (hright rest).bind fun y => .refl _
    · exact .refl _
  · by_cases hor : op = .or
    · subst hor
      rw [evaluateWithin, evaluateWithin]
      refine .nested (fun rest => (hleft rest).bind fun x => ?_) budget
      split
      · exact .refl _
      · exact (hright rest).bind fun y => .refl _
    · rw [evaluateWithin_strict hand hor, evaluateWithin_strict hand hor]
      refine .nested (fun rest => ?_) budget
      exact (hleft rest).bind fun x => (hright rest).bind fun y => .refl _

theorem sameUnless_conditional {condition condition' whenTrue whenTrue' whenFalse whenFalse' : Expr}
    (hcondition : ∀ budget, SameUnless e (condition.evaluateWithin provider budget)
      (condition'.evaluateWithin provider budget))
    (htrue : ∀ budget, SameUnless e (whenTrue.evaluateWithin provider budget)
      (whenTrue'.evaluateWithin provider budget))
    (hfalse : ∀ budget, SameUnless e (whenFalse.evaluateWithin provider budget)
      (whenFalse'.evaluateWithin provider budget)) (budget : Nat) :
    SameUnless e ((Expr.conditional condition whenTrue whenFalse).evaluateWithin provider budget)
      ((Expr.conditional condition' whenTrue' whenFalse').evaluateWithin provider budget) := by
  rw [evaluateWithin, evaluateWithin]
  refine .nested (fun rest => (hcondition rest).bind fun x => ?_) budget
  split
  · exact htrue rest
  · exact hfalse rest

/-- A call that cannot be made does not look at its arguments, and one that can be made hands on
what they do. -/
theorem sameUnless_call {arguments arguments' : List Expr} (function : String)
    (hlength : arguments'.length = arguments.length)
    (harguments : ∀ budget, SameUnless e (evaluateAllWithin provider budget arguments)
      (evaluateAllWithin provider budget arguments')) (budget : Nat) :
    SameUnless e ((Expr.call function arguments).evaluateWithin provider budget)
      ((Expr.call function arguments').evaluateWithin provider budget) := by
  rw [evaluateWithin, evaluateWithin]
  refine .nested (fun rest => ?_) budget
  cases Function.ofName? function with
  | none => exact .refl _
  | some f =>
      dsimp only
      rw [hlength]
      split
      · exact (harguments rest).bind fun values => .refl _
      · exact .refl _

/-- With whatever is put in the place of a node that always fails, the evaluation is the same unless
that node was what failed. -/
theorem Context.sameUnless_evaluateWithin (tree : Expr) :
    ∀ (context : Context) (budget : Nat),
      SameUnless (unknownNodeError kind)
        ((context.fill (unknownNode kind)).evaluateWithin provider budget)
        ((context.fill tree).evaluateWithin provider budget)
  | .hole, 0 => by
      rw [fill, fill, evaluateWithin_zero, evaluateWithin_zero]
      exact .refl _
  | .hole, rest + 1 => fun hends => absurd (evaluateWithin_unknownNode kind rest) hends
  | .operand op inner, budget => by
      rw [fill, fill, evaluateWithin, evaluateWithin]
      refine .nested (fun rest => ?_) budget
      exact (sameUnless_evaluateWithin tree inner rest).bind fun x => .refl _
  | .left op inner other, budget => by
      rw [fill, fill]
      exact sameUnless_binary op (sameUnless_evaluateWithin tree inner) (fun _ => .refl _) budget
  | .right op other inner, budget => by
      rw [fill, fill]
      exact sameUnless_binary op (fun _ => .refl _) (sameUnless_evaluateWithin tree inner) budget
  | .condition inner yes no, budget => by
      rw [fill, fill]
      exact sameUnless_conditional (sameUnless_evaluateWithin tree inner) (fun _ => .refl _)
        (fun _ => .refl _) budget
  | .whenTrue test inner no, budget => by
      rw [fill, fill]
      exact sameUnless_conditional (fun _ => .refl _) (sameUnless_evaluateWithin tree inner)
        (fun _ => .refl _) budget
  | .whenFalse test yes inner, budget => by
      rw [fill, fill]
      exact sameUnless_conditional (fun _ => .refl _) (fun _ => .refl _)
        (sameUnless_evaluateWithin tree inner) budget
  | .argument function before inner after, budget => by
      have hargument := sameUnless_evaluateWithin tree inner
      rw [fill, fill]
      refine sameUnless_call function ?_ (fun rest => ?_) budget
      · rw [List.length_append, List.length_append, List.length_cons, List.length_cons]
      · exact sameUnless_evaluateAllWithin (hargument rest) before after

/-- A hole that is not reached makes no difference.  When a tree has a value with a node in its hole
that always fails, it has that value with any other tree there; and when it fails with an error that
is not that node's own, it fails so with any other tree there.  The same questions are asked, too.
The kind of the node is free, so its error can be told from those of other unknown nodes. -/
theorem Context.evaluate_fill_of_unreached (context : Context) (provider : Provider)
    (kind : String) :
    let failing : Evaluation Float := (context.fill (unknownNode kind)).evaluate provider
    (∀ value, failing.outcome = .ok value → ∀ tree : Expr,
      (context.fill tree).evaluate provider = ⟨.ok value, failing.log⟩) ∧
    ∀ e, failing.outcome = .error e → e ≠ unknownNodeError kind → ∀ tree : Expr,
      (context.fill tree).evaluate provider = ⟨.error e, failing.log⟩ := by
  intro failing
  have hsame (tree : Expr) :
      SameUnless (unknownNodeError kind) failing ((context.fill tree).evaluate provider) :=
    sameUnless_evaluateWithin tree context depthLimit
  refine ⟨fun value hvalue tree => ?_, fun e he hother tree => ?_⟩
  · rw [hsame tree (hvalue ▸ nofun), ← hvalue]
  · have hends : failing.outcome ≠ .error (unknownNodeError kind) := by
      rw [he]
      exact fun heq => hother (Except.error.inj heq)
    rw [hsame tree hends, ← he]

/-- A right operand that is left alone, as the left one is true. -/
def lazyOr : Context :=
  .right .or (.boolean true) .hole

/-- An argument of a function that is not there. -/
def lostArgument : Context :=
  .argument "median" [.number 1] .hole [.boolean true]

/-- Neither the operand nor the argument matters. -/
theorem Context.evaluate_fill_of_unreached_lazy :
    ((lazyOr.fill (unknownNode "ASTNode")).evaluate ({} : Environment).provider).outcome = .ok 1 ∧
      ((lazyOr.fill (.name "missing")).evaluate ({} : Environment).provider).outcome = .ok 1 ∧
      ((lostArgument.fill (unknownNode "ASTNode")).evaluate ({} : Environment).provider).outcome
        = .error (.unknownFunction "median") ∧
      ((lostArgument.fill (.name "missing")).evaluate ({} : Environment).provider).outcome
        = .error (.unknownFunction "median") := by
  have hvalue : ((lazyOr.fill (unknownNode "ASTNode")).evaluate
      ({} : Environment).provider).outcome = .ok 1 := rfl
  have hfails : ((lostArgument.fill (unknownNode "ASTNode")).evaluate
      ({} : Environment).provider).outcome = .error (.unknownFunction "median") := rfl
  have hor := (evaluate_fill_of_unreached lazyOr _ "ASTNode").1 1 hvalue (.name "missing")
  have hcall := (evaluate_fill_of_unreached lostArgument _ "ASTNode").2 _ hfails nofun
    (.name "missing")
  exact ⟨hvalue, congrArg Logged.outcome hor, hfails, congrArg Logged.outcome hcall⟩

end Expr

end Stylesheet
