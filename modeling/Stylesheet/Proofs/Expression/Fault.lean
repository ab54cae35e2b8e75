import Stylesheet.Proofs.Expression.Cause

/-!
# When an evaluation fails

An evaluation that comes to a cause of an error gives that error: nothing on the way back to the
root of the tree makes up for it.
-/

namespace Stylesheet

open Logged

variable {provider : Provider} {budget : Nat} {e : EvaluationError}

namespace Expr

theorem outcome_evaluateAllWithin_append {before : List Expr} {argument : Expr}
    {values : List Float}
    (hbefore : (evaluateAllWithin provider budget before).outcome = .ok values)
    (hargument : (argument.evaluateWithin provider budget).outcome = .error e)
    (after : List Expr) :
    (evaluateAllWithin provider budget (before ++ argument :: after)).outcome = .error e := by
  induction before generalizing values with
  | nil => rw [List.nil_append, evaluateAllWithin, bind_of_error hargument]
  | cons first rest ih =>
      rw [evaluateAllWithin] at hbefore
      obtain ⟨value, hvalue, hbefore⟩ := outcome_bind_eq_ok_iff.mp hbefore
      obtain ⟨others, hothers, -⟩ := outcome_bind_eq_ok_iff.mp hbefore
      rw [List.cons_append, evaluateAllWithin, bind_of_ok hvalue]
      dsimp only
      rw [bind_of_error (ih hothers)]

/-- An operator fails with its left operand. -/
theorem outcome_binary_of_left {op : BinaryOperator} {left right : Expr}
    (hleft : (left.evaluateWithin provider budget).outcome = .error e) :
    ((Expr.binary op left right).evaluateWithin provider (budget + 1)).outcome = .error e := by
  by_cases hand : op = .and
  · rw [hand, evaluateWithin, nested, bind_of_error hleft]
  · by_cases hor : op = .or
    · rw [hor, evaluateWithin, nested, bind_of_error hleft]
    · rw [evaluateWithin_strict hand hor, nested, bind_of_error hleft]

/-- An operator fails with its right operand when it goes on to it. -/
theorem outcome_binary_of_right {op : BinaryOperator} {left right : Expr} {x : Float}
    (hleft : (left.evaluateWithin provider budget).outcome = .ok x)
    (hneeds : op.needsRight x = true)
    (hright : (right.evaluateWithin provider budget).outcome = .error e) :
    ((Expr.binary op left right).evaluateWithin provider (budget + 1)).outcome = .error e := by
  by_cases hand : op = .and
  · subst hand
    have htrue : truthy x = true := hneeds
    rw [evaluateWithin, nested, bind_of_ok hleft]
    dsimp only
    rw [if_pos htrue, bind_of_error hright]
  · by_cases hor : op = .or
    · subst hor
      have hfalse : truthy x = false := by simpa [BinaryOperator.needsRight] using hneeds
      rw [evaluateWithin, nested, bind_of_ok hleft]
      dsimp only
      rw [hfalse, if_neg Bool.false_ne_true, bind_of_error hright]
    · rw [evaluateWithin_strict hand hor, nested, bind_of_ok hleft]
      dsimp only
      rw [bind_of_error hright]

/-- An operator that evaluates both its operands has the outcome that it has at their values. -/
theorem outcome_binary_of_ok {op : BinaryOperator} (hand : op ≠ .and) (hor : op ≠ .or)
    {left right : Expr} {x y : Float}
    (hleft : (left.evaluateWithin provider budget).outcome = .ok x)
    (hright : (right.evaluateWithin provider budget).outcome = .ok y) :
    ((Expr.binary op left right).evaluateWithin provider (budget + 1)).outcome = op.apply x y := by
  rw [evaluateWithin_strict hand hor, nested, bind_of_ok hleft]
  dsimp only
  rw [bind_of_ok hright]
  rfl

/-- A tree fails with a tree right below its root that an evaluation comes to. -/
theorem GoesTo.outcome_evaluateWithin {tree child : Expr}
    (hgoes : tree.GoesTo provider budget child)
    (hchild : (child.evaluateWithin provider budget).outcome = .error e) :
    (tree.evaluateWithin provider (budget + 1)).outcome = .error e := by
  cases hgoes with
  | operand => rw [evaluateWithin, nested, bind_of_error hchild]
  | left => exact outcome_binary_of_left hchild
  | right hleft hneeds => exact outcome_binary_of_right hleft hneeds hchild
  | condition => rw [evaluateWithin, nested, bind_of_error hchild]
  | whenTrue hcondition htrue =>
      rw [evaluateWithin, nested, bind_of_ok hcondition]
      dsimp only
      rw [if_pos htrue, hchild]
  | whenFalse hcondition hfalse =>
      rw [evaluateWithin, nested, bind_of_ok hcondition]
      dsimp only
      rw [hfalse, if_neg Bool.false_ne_true, hchild]
  | argument hfunction haccepts hbefore =>
      have harguments := outcome_evaluateAllWithin_append hbefore hchild
      rw [evaluateWithin, nested, hfunction]
      dsimp only
      rw [if_pos haccepts, bind_of_error (harguments _)]

end Expr

/-- A node that is the cause of an error fails with it. -/
theorem EvaluationError.CausedBy.outcome_evaluateWithin {node : Expr}
    (hcause : e.CausedBy provider budget node) :
    (node.evaluateWithin provider (budget + 1)).outcome = .error e := by
  cases hcause with
  | unknownSymbol hconstant hanswer =>
      rw [Expr.evaluateWithin, nested, Provider.valueOf_eq, hconstant]
      dsimp only
      rw [Provider.ask_eq, hanswer]
      rfl
  | unresolvedSymbol hconstant hanswer =>
      rw [Expr.evaluateWithin, nested, Provider.valueOf_eq, hconstant]
      dsimp only
      rw [Provider.ask_eq, hanswer]
      rfl
  | divisionByZero hleft hright hzero =>
      have hand : BinaryOperator.divide ≠ .and := by rintro ⟨⟩
      have hor : BinaryOperator.divide ≠ .or := by rintro ⟨⟩
      exact (Expr.outcome_binary_of_ok hand hor hleft hright).trans (if_pos hzero)
  | moduloByZero hleft hright hzero =>
      have hand : BinaryOperator.modulo ≠ .and := by rintro ⟨⟩
      have hor : BinaryOperator.modulo ≠ .or := by rintro ⟨⟩
      exact (Expr.outcome_binary_of_ok hand hor hleft hright).trans (if_pos hzero)
  | moduloOfNonFinite hleft hright hzero hfinite =>
      have hand : BinaryOperator.modulo ≠ .and := by rintro ⟨⟩
      have hor : BinaryOperator.modulo ≠ .or := by rintro ⟨⟩
      rw [Expr.outcome_binary_of_ok hand hor hleft hright, BinaryOperator.apply, hzero,
        if_neg Bool.false_ne_true, hfinite]
      rfl
  | unknownFunction hfunction =>
      rw [Expr.evaluateWithin, nested, hfunction]
      rfl
  | argumentCount hfunction haccepts =>
      rw [Expr.evaluateWithin, nested, hfunction]
      dsimp only
      rw [haccepts, if_neg Bool.false_ne_true]
      rfl
  | functionFault hfunction haccepts hvalues hfault _ =>
      rw [Expr.evaluateWithin, nested, hfunction]
      dsimp only
      rw [if_pos haccepts, bind_of_ok hvalues]
      dsimp only
      rw [hfault]
      rfl
  | @unknownOperator symbol left right x y hleft hright =>
      have hand : BinaryOperator.unlisted symbol ≠ .and := by rintro ⟨⟩
      have hor : BinaryOperator.unlisted symbol ≠ .or := by rintro ⟨⟩
      exact Expr.outcome_binary_of_ok hand hor hleft hright
  | unknownUnaryOperator hoperand =>
      rw [Expr.evaluateWithin, nested, bind_of_ok hoperand]
      rfl
  | foreign =>
      rw [Expr.evaluateWithin, nested]
      rfl

namespace Expr

/-- A tree fails with any part that an evaluation comes to. -/
theorem Meets.outcome_evaluateWithin {tree part : Expr} {rest : Nat}
    (hmeets : tree.Meets provider budget part rest)
    (hpart : (part.evaluateWithin provider rest).outcome = .error e) :
    (tree.evaluateWithin provider budget).outcome = .error e := by
  induction hmeets with
  | self => exact hpart
  | next hgoes _ ih => exact hgoes.outcome_evaluateWithin (ih hpart)

/-- Nothing is evaluated with a budget of zero. -/
theorem outcome_evaluateWithin_zero (tree : Expr) :
    (tree.evaluateWithin provider 0).outcome = .error .tooDeep := by
  cases tree with
  | binary op => cases op <;> simp [evaluateWithin, nested, fail]
  | number | boolean | name | unary | conditional | call | foreign =>
      simp only [evaluateWithin, nested, fail]

/-- An evaluation fails with the errors that it comes to a cause of, and with no others. -/
theorem outcome_evaluateWithin_eq_error_iff {tree : Expr} :
    (tree.evaluateWithin provider budget).outcome = .error e ↔
      tree.FailsWith provider budget e := by
  constructor
  · exact (accounts_evaluateWithin tree budget).failed e
  · intro hfails
    cases hfails with
    | cause hmeets hcause => exact hmeets.outcome_evaluateWithin hcause.outcome_evaluateWithin
    | tooDeep hmeets => exact hmeets.outcome_evaluateWithin (outcome_evaluateWithin_zero _)

end Expr

end Stylesheet
