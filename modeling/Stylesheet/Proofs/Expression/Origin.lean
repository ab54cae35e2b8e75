import Stylesheet.Proofs.Decimal
import Stylesheet.Proofs.Expression.Failure

/-!
# Where a NaN comes from

Some trees hand on an answer of the provider: if their value is a NaN, then no computation made it,
and it is the answer itself.  Tracing a tree back finds the question.
-/

namespace Stylesheet

open Logged

/-- A NaN is less than nothing, and nothing is less than it. -/
theorem not_lt_of_isNaN {x y : Float} (hnan : x.isNaN = true ∨ y.isNaN = true) : ¬ x < y := by
  intro hless
  have hcompare : (x.toModel.unpack.compare y.toModel.unpack == some .lt) = true :=
    of_decide_eq_true hless
  rcases hnan with hnan | hnan
  · rw [Decimal.unpack_of_isNaN hnan] at hcompare
    cases hcompare
  · rw [Decimal.unpack_of_isNaN hnan] at hcompare
    generalize x.toModel.unpack = u at hcompare
    cases u <;> cases hcompare

namespace Function

/-- Choosing among numbers by comparison gives a NaN only where it started from one. -/
theorem isNaN_foldl {prefers : Float → Float → Prop} [DecidableRel prefers]
    (hprefers : ∀ x y, x.isNaN = true → ¬ prefers x y) {values : List Float} {first : Float}
    (hnan : (values.foldl (fun chosen y => if prefers y chosen then y else chosen) first).isNaN
      = true) :
    values.foldl (fun chosen y => if prefers y chosen then y else chosen) first = first := by
  induction values generalizing first with
  | nil => rfl
  | cons y rest ih =>
      rw [List.foldl_cons] at hnan ⊢
      have hrest := ih hnan
      rw [hrest] at hnan ⊢
      split
      · next hy =>
          rw [if_pos hy] at hnan
          exact absurd hy (hprefers y first hnan)
      · rfl

end Function

namespace Expr

variable {provider : Provider}

/-- The first of the arguments is what a least or greatest value is, if that is a NaN. -/
theorem outcome_first_of_isNaN {f : Function} {first : Expr} {rest : List Expr} {budget : Nat}
    {values : List Float} {x : Float} (hf : f = .min ∨ f = .max)
    (hvalues : (evaluateAllWithin provider budget (first :: rest)).outcome = .ok values)
    (hvalue : f.apply values = .ok x) (hnan : x.isNaN = true) :
    (first.evaluateWithin provider budget).outcome = .ok x := by
  rw [evaluateAllWithin] at hvalues
  obtain ⟨value, hfirst, hvalues⟩ := outcome_bind_eq_ok_iff.mp hvalues
  obtain ⟨others, -, hvalues⟩ := outcome_bind_eq_ok_iff.mp hvalues
  cases hvalues
  rw [hfirst]
  rcases hf with rfl | rfl
  · cases hvalue
    rw [Function.isNaN_foldl (fun x y hx => not_lt_of_isNaN (.inl hx)) hnan]
  · cases hvalue
    rw [Function.isNaN_foldl (fun x y hx => not_lt_of_isNaN (.inr hx)) hnan]

/-- The value of a name that is no constant is the provider's answer. -/
theorem answer_of_outcome_valueOf {name : String} {x : Float} (hconstant : constant? name = none)
    (hvalue : (provider.valueOf name).outcome = .ok x) :
    provider.answer (.ofName name) = .ok (some x) := by
  rw [Provider.valueOf_eq, hconstant] at hvalue
  obtain ⟨answer, hanswer, hvalue⟩ := outcome_bind_eq_ok_iff.mp hvalue
  rw [Provider.ask_eq] at hanswer
  cases hprovider : provider.answer (.ofName name) with
  | error reason =>
      rw [hprovider] at hanswer
      cases hanswer
  | ok found =>
      rw [hprovider] at hanswer
      cases hanswer
      cases answer with
      | none => cases hvalue
      | some value =>
          cases hvalue
          rfl

/-- A call has a value when its arguments have values that its function takes to it. -/
theorem outcome_call_eq_ok {name : String} {f : Function} {arguments : List Expr} {budget : Nat}
    {x : Float} (hf : Function.ofName? name = some f)
    (hvalue : ((Expr.call name arguments).evaluateWithin provider (budget + 1)).outcome = .ok x) :
    ∃ values, (evaluateAllWithin provider budget arguments).outcome = .ok values ∧
      f.apply values = .ok x := by
  rw [evaluateWithin, nested] at hvalue
  simp only [hf] at hvalue
  split at hvalue
  · obtain ⟨values, hvalues, hvalue⟩ := outcome_bind_eq_ok_iff.mp hvalue
    refine ⟨values, hvalues, ?_⟩
    split at hvalue
    · next y hy =>
        cases hvalue
        exact hy
    · cases hvalue
  · cases hvalue

/-- `HandsOn provider budget tree query`: evaluating a tree within a budget hands on the answer to a
question, if the value is a NaN.  Names hand on their answers, and choices what they choose. -/
inductive HandsOn (provider : Provider) : Nat → Expr → Query → Prop where
  | name {budget : Nat} {text : String} (hconstant : constant? text = none) :
      HandsOn provider (budget + 1) (.name text) (.ofName text)
  | whenTrue {budget : Nat} {condition whenTrue whenFalse : Expr} {x : Float} {query : Query}
      (hcondition : (condition.evaluateWithin provider budget).outcome = .ok x)
      (htruthy : truthy x = true) (hchosen : HandsOn provider budget whenTrue query) :
      HandsOn provider (budget + 1) (.conditional condition whenTrue whenFalse) query
  | whenFalse {budget : Nat} {condition whenTrue whenFalse : Expr} {x : Float} {query : Query}
      (hcondition : (condition.evaluateWithin provider budget).outcome = .ok x)
      (htruthy : truthy x = false) (hchosen : HandsOn provider budget whenFalse query) :
      HandsOn provider (budget + 1) (.conditional condition whenTrue whenFalse) query
  /-- The least or the greatest of some numbers is a NaN just when the first of them is. -/
  | first {budget : Nat} {function : String} {f : Function} {first : Expr} {rest : List Expr}
      {query : Query} (hf : Function.ofName? function = some f) (hchooses : f = .min ∨ f = .max)
      (hfirst : HandsOn provider budget first query) :
      HandsOn provider (budget + 1) (.call function (first :: rest)) query

theorem handsOn_of_origin? {budget : Nat} {tree : Expr} {query : Query}
    (horigin : tree.origin? provider budget = some query) :
    HandsOn provider budget tree query := by
  induction budget generalizing tree with
  | zero =>
      rw [origin?] at horigin
      cases horigin
  | succ budget ih =>
      cases tree with
      | number | boolean | unary | binary | foreign =>
          rw [origin?] at horigin <;> cases horigin
      | name text =>
          rw [origin?] at horigin
          cases hconstant : constant? text with
          | some value =>
              rw [hconstant] at horigin
              cases horigin
          | none =>
              rw [hconstant] at horigin
              cases horigin
              exact .name hconstant
      | conditional condition whenTrue whenFalse =>
          rw [origin?] at horigin
          cases hcondition : (condition.evaluateWithin provider budget).outcome with
          | error e =>
              rw [hcondition] at horigin
              cases horigin
          | ok x =>
              simp only [hcondition] at horigin
              cases htruthy : truthy x with
              | true =>
                  rw [htruthy] at horigin
                  exact .whenTrue hcondition htruthy (ih horigin)
              | false =>
                  rw [htruthy] at horigin
                  exact .whenFalse hcondition htruthy (ih horigin)
      | call function arguments =>
          cases arguments with
          | nil =>
              rw [origin?] at horigin <;> cases horigin
          | cons first rest =>
              rw [origin?] at horigin
              split at horigin
              · next hf => exact .first hf (.inl rfl) (ih horigin)
              · next hf => exact .first hf (.inr rfl) (ih horigin)
              · cases horigin

theorem HandsOn.origin?_eq_some {budget : Nat} {tree : Expr} {query : Query}
    (hhands : HandsOn provider budget tree query) :
    tree.origin? provider budget = some query := by
  induction hhands with
  | name hconstant =>
      rw [origin?, hconstant]
      rfl
  | whenTrue hcondition htruthy _ ih =>
      rw [origin?, hcondition]
      simp only [htruthy, if_true, ih]
  | whenFalse hcondition htruthy _ ih =>
      rw [origin?, hcondition]
      simp only [htruthy, Bool.false_eq_true, if_false, ih]
  | first hf hchooses _ ih =>
      rw [origin?, hf]
      rcases hchooses with rfl | rfl <;> exact ih

/-- Tracing a tree back finds the question whose answer is handed on. -/
theorem origin?_eq_some_iff {budget : Nat} {tree : Expr} {query : Query} :
    tree.origin? provider budget = some query ↔ HandsOn provider budget tree query :=
  ⟨handsOn_of_origin?, HandsOn.origin?_eq_some⟩

/-- A NaN that is handed on is the answer to the question. -/
theorem HandsOn.answer_of_isNaN {budget : Nat} {tree : Expr} {query : Query} {x : Float}
    (hhands : HandsOn provider budget tree query)
    (hvalue : (tree.evaluateWithin provider budget).outcome = .ok x) (hnan : x.isNaN = true) :
    provider.answer query = .ok (some x) := by
  induction hhands with
  | name hconstant =>
      rw [evaluateWithin, nested] at hvalue
      exact answer_of_outcome_valueOf hconstant hvalue
  | whenTrue hcondition htruthy _ ih =>
      rw [evaluateWithin, nested] at hvalue
      obtain ⟨y, hy, hvalue⟩ := outcome_bind_eq_ok_iff.mp hvalue
      cases hcondition.symm.trans hy
      rw [if_pos htruthy] at hvalue
      exact ih hvalue
  | whenFalse hcondition htruthy _ ih =>
      rw [evaluateWithin, nested] at hvalue
      obtain ⟨y, hy, hvalue⟩ := outcome_bind_eq_ok_iff.mp hvalue
      cases hcondition.symm.trans hy
      rw [if_neg (Bool.eq_false_iff.mp htruthy)] at hvalue
      exact ih hvalue
  | first hf hchooses _ ih =>
      obtain ⟨values, hvalues, hx⟩ := outcome_call_eq_ok hf hvalue
      exact ih (outcome_first_of_isNaN hchooses hvalues hx hnan)

end Expr

namespace Expression

/-- `e.Returns provider query x`: an expression returns the lasting answer to a question: its tree
hands the answer on, the answer is the same object each time, and it is the value. -/
structure Returns (provider : Provider) (e : Expression) (query : Query) (x : Float) : Prop where
  handsOn : ∃ tree, e.tree = .ok tree ∧ Expr.HandsOn provider Expr.depthLimit tree query
  keeps : provider.keeps query = true
  answer : provider.answer query = .ok (some x)

/-- The value of an expression is that of its tree. -/
theorem outcome_evaluate_of_attempt {provider : Provider} {e : Expression} {tree : Expr} {x : Float}
    (htree : e.tree = .ok tree) (hattempt : (e.attempt provider).outcome = .ok x) :
    (tree.evaluate provider).outcome = .ok x := by
  rw [outcome_attempt_of_tree htree] at hattempt
  cases hevaluate : (tree.evaluate provider).outcome with
  | error reason =>
      rw [hevaluate] at hattempt
      cases hattempt
  | ok y =>
      rw [hevaluate] at hattempt
      cases hattempt
      rfl

/-- The question that is kept for a NaN is the one whose lasting answer the expression returns. -/
theorem kept?_eq_some_iff {provider : Provider} {e : Expression} {query : Query} {x : Float}
    (hattempt : (e.attempt provider).outcome = .ok x) (hnan : x.isNaN = true) :
    e.kept? provider = some query ↔ e.Returns provider query x := by
  unfold kept?
  rw [hattempt]
  cases htree : e.tree with
  | error error => cases (outcome_attempt_of_error htree).symm.trans hattempt
  | ok tree =>
      simp only [hnan, if_true, Option.filter_eq_some_iff, Expr.origin?_eq_some_iff]
      constructor
      · rintro ⟨hhands, hkeeps⟩
        have hvalue := outcome_evaluate_of_attempt htree hattempt
        exact ⟨⟨tree, htree, hhands⟩, hkeeps, hhands.answer_of_isNaN hvalue hnan⟩
      · rintro ⟨⟨other, hother, hhands⟩, hkeeps, -⟩
        cases htree.symm.trans hother
        exact ⟨hhands, hkeeps⟩

end Expression

end Stylesheet
