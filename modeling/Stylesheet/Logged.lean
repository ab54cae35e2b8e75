/-!
# Computations that keep a log

A computation may fail and writes entries to a log on its way.  Entries are only ever appended,
and those written before a failure stay.
-/

namespace Stylesheet

/-- The outcome of a computation and the entries that it wrote, in order. -/
structure Logged (ω ε α : Type) where
  outcome : Except ε α
  log : List ω

namespace Logged

variable {ω ε α β : Type}

/-- Continue after a success; a failure ends the computation. -/
def bind (x : Logged ω ε α) (f : α → Logged ω ε β) : Logged ω ε β :=
  match x.outcome with
  | .error e => ⟨.error e, x.log⟩
  | .ok a => ⟨(f a).outcome, x.log ++ (f a).log⟩

instance : Monad (Logged ω ε) where
  pure a := ⟨.ok a, []⟩
  bind := bind

def fail (e : ε) : Logged ω ε α :=
  ⟨.error e, []⟩

/-- Write one entry. -/
def note (entry : ω) : Logged ω ε Unit :=
  ⟨.ok (), [entry]⟩

/-- Take a result that is known already. -/
def ofExcept (outcome : Except ε α) : Logged ω ε α :=
  ⟨outcome, []⟩

/-- Restate a failure. -/
def mapError {ε' : Type} (f : ε → ε') (x : Logged ω ε α) : Logged ω ε' α :=
  ⟨x.outcome.mapError f, x.log⟩

def value (x : Logged ω Empty α) : α :=
  match x.outcome with
  | .ok a => a

@[simp] theorem outcome_pure (a : α) : (pure a : Logged ω ε α).outcome = .ok a := rfl

@[simp] theorem log_pure (a : α) : (pure a : Logged ω ε α).log = [] := rfl

@[simp] theorem outcome_note (entry : ω) : (note entry : Logged ω ε Unit).outcome = .ok () := rfl

@[simp] theorem log_note (entry : ω) : (note entry : Logged ω ε Unit).log = [entry] := rfl

theorem bind_of_ok {x : Logged ω ε α} {a : α} (h : x.outcome = .ok a) (f : α → Logged ω ε β) :
    x >>= f = ⟨(f a).outcome, x.log ++ (f a).log⟩ := by
  show Logged.bind x f = _
  simp [Logged.bind, h]

theorem bind_of_error {x : Logged ω ε α} {e : ε} (h : x.outcome = .error e)
    (f : α → Logged ω ε β) : x >>= f = ⟨.error e, x.log⟩ := by
  show Logged.bind x f = _
  simp [Logged.bind, h]

/-- Mapping the identity over a computation changes nothing. -/
theorem bind_pure_self (x : Logged ω ε α) : Logged.bind x (fun a => ⟨.ok a, []⟩) = x := by
  obtain ⟨outcome, log⟩ := x
  cases outcome <;> simp [Logged.bind]

theorem bind_bind {γ : Type} (x : Logged ω ε α) (f : α → Logged ω ε β) (g : β → Logged ω ε γ) :
    Logged.bind (Logged.bind x f) g = Logged.bind x fun a => Logged.bind (f a) g := by
  obtain ⟨outcome, log⟩ := x
  cases outcome with
  | error e => rfl
  | ok a =>
      simp only [Logged.bind]
      cases (f a).outcome <;> simp

instance : LawfulMonad (Logged ω ε) :=
  LawfulMonad.mk' _
    (fun x => bind_pure_self x)
    (fun _ _ => by simp [Bind.bind, Pure.pure, Logged.bind])
    (fun x f g => bind_bind x f g)

end Logged

end Stylesheet
