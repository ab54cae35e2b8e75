import Stylesheet.Proofs.Logged

/-!
# Two runs of a computation

One computation for two providers: both runs fail with one error, or give results that are related,
and they record the same diagnostics but for those of failed evaluations.
-/

namespace Stylesheet

/-- Two outcomes are one error or related results. -/
inductive OutcomesAgree {ε α : Type} (R : α → α → Prop) : Except ε α → Except ε α → Prop where
  | error (e : ε) : OutcomesAgree R (.error e) (.error e)
  | ok {a b : α} (hresults : R a b) : OutcomesAgree R (.ok a) (.ok b)

namespace OutcomesAgree

variable {ε α : Type} {R : α → α → Prop} {x y : Except ε α}

theorem eq_error_iff (hagree : OutcomesAgree R x y) (e : ε) : x = .error e ↔ y = .error e := by
  cases hagree <;> simp

theorem mapError {ε' : Type} (hagree : OutcomesAgree R x y) (f : ε → ε') :
    OutcomesAgree R (x.mapError f) (y.mapError f) := by
  cases hagree with
  | error e => exact .error (f e)
  | ok hresults => exact .ok hresults

end OutcomesAgree

namespace Logged

variable {ε α β : Type} {R : α → α → Prop} {S : β → β → Prop}

/-- The diagnostics of a computation but for those of failed evaluations. -/
def lasting (x : Logged Event ε α) : List Diagnostic :=
  x.diagnostics.filter fun d => decide (d.code ≠ .evaluationFailed)

theorem lasting_bind_of_ok {x : Logged Event ε α} {a : α} (hx : x.outcome = .ok a)
    (f : α → Logged Event ε β) : (x >>= f).lasting = x.lasting ++ (f a).lasting := by
  rw [lasting, diagnostics_bind hx, List.filter_append]
  rfl

theorem lasting_bind_of_error {x : Logged Event ε α} {e : ε} (hx : x.outcome = .error e)
    (f : α → Logged Event ε β) : (x >>= f).lasting = x.lasting := by
  rw [bind_of_error hx]
  rfl

/-- Two runs that agree: one error or related results, and the same lasting diagnostics. -/
structure Agree (R : α → α → Prop) (x y : Logged Event ε α) : Prop where
  outcome : OutcomesAgree R x.outcome y.outcome
  lasting : x.lasting = y.lasting

namespace Agree

theorem pure {a b : α} (hresults : R a b) : Agree R (pure a : Logged Event ε α) (pure b) where
  outcome := .ok hresults
  lasting := rfl

theorem fail (e : ε) : Agree R (fail e : Logged Event ε α) (fail e) where
  outcome := .error e
  lasting := rfl

/-- A run agrees with itself. -/
theorem refl (hrefl : ∀ a, R a a) (x : Logged Event ε α) : Agree R x x where
  outcome := by
    cases x.outcome with
    | error e => exact .error e
    | ok a => exact .ok (hrefl a)
  lasting := rfl

/-- Runs agree in sequence when they agree on related results. -/
theorem bind {x y : Logged Event ε α} {f g : α → Logged Event ε β} (hxy : Agree R x y)
    (hfg : ∀ a b, R a b → Agree S (f a) (g b)) : Agree S (x >>= f) (y >>= g) := by
  obtain ⟨houtcome, hlasting⟩ := hxy
  generalize hx : x.outcome = outcome at houtcome
  generalize hy : y.outcome = outcome' at houtcome
  cases houtcome with
  | error e =>
      refine ⟨?_, ?_⟩
      · rw [bind_of_error hx, bind_of_error hy]
        exact .error e
      · rw [lasting_bind_of_error hx, lasting_bind_of_error hy, hlasting]
  | ok hresults =>
      have hsecond := hfg _ _ hresults
      refine ⟨?_, ?_⟩
      · rw [bind_of_ok hx, bind_of_ok hy]
        exact hsecond.outcome
      · rw [lasting_bind_of_ok hx, lasting_bind_of_ok hy, hlasting, hsecond.lasting]

theorem mapError {ε' : Type} {x y : Logged Event ε α} (hxy : Agree R x y) (f : ε → ε') :
    Agree R (x.mapError f) (y.mapError f) where
  outcome := hxy.outcome.mapError f
  lasting := hxy.lasting

end Agree

end Logged

end Stylesheet
