import Stylesheet.Proofs.Rule.TypedRead

/-!
# Values and defaults

A read takes its default when there is no value to be had, and then it says why in a diagnostic.
The one other end is an integer that no double can hold, read as a number.
-/

namespace Stylesheet

open Logged

/-- The codes of the diagnostics that go with a default. -/
def DiagnosticCode.fallbackCodes : List DiagnosticCode :=
  [.unknownRule, .typeMismatch, .noMatch, .evaluationFailed]

variable {ε α : Type}

/-- An expression without a value says so. -/
theorem Expression.reports_evaluate? {e : Expression} {provider : Provider} {rule : Option String}
    (hnone : (e.evaluate? provider rule : Logged Event ε (Option Float)).outcome = .ok none) :
    (e.evaluate? provider rule : Logged Event ε (Option Float)).Reports
      DiagnosticCode.fallbackCodes := by
  cases hattempt : (e.attempt provider).outcome with
  | ok x =>
      rw [evaluate?_of_ok hattempt] at hnone
      cases hnone
  | error reason =>
      refine ⟨e.failure reason rule, ?_, by simp [failure, DiagnosticCode.fallbackCodes]⟩
      rw [diagnostics_evaluate?, failure?_of_error hattempt]
      exact List.mem_singleton_self _

/-- A computation comes to a plain value, or to none and says so. -/
def Settles (x : Logged Event ε Resolution) : Prop :=
  (∃ p, x.outcome = .ok (.value p)) ∨
    x.outcome = .ok .unavailable ∧ x.Reports DiagnosticCode.fallbackCodes

theorem Settles.after {x : Logged Event ε Resolution} (hx : Settles x) (entries : List Event) :
    Settles (x.after entries) := by
  rcases hx with ⟨p, hp⟩ | ⟨hnone, hreports⟩
  · exact .inl ⟨p, hp⟩
  · exact .inr ⟨hnone, hreports.after entries⟩

namespace Value

variable {provider : Provider} {rule : Option String}

mutual

/-- A value that is not undefined settles. -/
theorem resolve_settles : ∀ value : Value, value.isUndefined = false →
    Settles (value.resolve provider rule : Logged Event ε Resolution)
  | .undefined, hdefined => by cases hdefined
  | .plain p, _ => by
      rw [resolve]
      exact .inl ⟨p, rfl⟩
  | .expression e, _ => by
      obtain ⟨result, hresult, -⟩ := Expression.outcome_evaluate? (ε := ε) e provider rule
      rw [resolve]
      cases result with
      | some x => exact .inl ⟨_, outcome_bind_eq_ok_iff.mpr ⟨_, hresult, rfl⟩⟩
      | none =>
          have hreports := Expression.reports_evaluate? hresult
          exact .inr ⟨outcome_bind_eq_ok_iff.mpr ⟨_, hresult, rfl⟩, hreports.bind _⟩
  | .conditional kind branches, _ => by
      rw [resolve]
      exact resolveBranches_settles branches

/-- Branches settle: an undefined one is never taken. -/
theorem resolveBranches_settles : ∀ branches : List (Branch Value),
    Settles (resolveBranches provider rule branches : Logged Event ε Resolution)
  | [] => by
      rw [resolveBranches]
      have hcode : (noMatch rule).code ∈ DiagnosticCode.fallbackCodes := by
        simp [noMatch, DiagnosticCode.fallbackCodes]
      exact .inr ⟨rfl, reports_report_bind hcode _⟩
  | ⟨source, condition, value⟩ :: rest => by
      have hrest := resolveBranches_settles rest
      have hvalue := resolve_settles value
      rw [resolveBranches_cons]
      apply Settles.after
      by_cases hopens : Branch.opens provider ⟨source, condition, value⟩ = true
      · rw [if_pos hopens]
        exact hvalue (Branch.opens_iff.mp hopens).1
      · rw [if_neg hopens]
        exact hrest

end

/-- All integers in a value have doubles. -/
def IntegersFit (value : Value) : Prop :=
  ∀ n : Int, value.MayBe (.value (.number (.integer n))) → (Number.integer n).toFloat? ≠ none

end Value

/-- The value of a rule resolves to an integer beyond all doubles. -/
def Rule.Overflows (provider : Provider) (rule : Rule) : Prop :=
  ∃ n : Int, (rule.value.resolve provider (some rule.key) :
      Logged Event ReadError Resolution).outcome = .ok (.value (.number (.integer n))) ∧
    (Number.integer n).toFloat? = none

/-- The integers in a rule that fit keep it from overflowing. -/
theorem Value.IntegersFit.not_overflows {rule : Rule} (hfits : rule.value.IntegersFit)
    (provider : Provider) : ¬ rule.Overflows provider := by
  rintro ⟨n, hn, htoo⟩
  obtain ⟨resolution, hresolution, hmay, -⟩ :=
    Value.resolve_spec (ε := ReadError) provider (some rule.key) rule.value
  rw [hn] at hresolution
  cases hresolution
  exact hfits n hmay htoo

namespace Accessor

/-- The accessors that there are. -/
inductive IsTyped : {α : Type} → Accessor α → Prop where
  | integer : IsTyped Accessor.integer
  | float : IsTyped Accessor.float
  | boolean : IsTyped Accessor.boolean
  | string : IsTyped Accessor.string
  | font : IsTyped Accessor.font
  | color : IsTyped Accessor.color

/-- An accessor reads the rules that count as numbers. -/
def IsNumeric (accessor : Accessor α) : Prop :=
  accessor.kinds = numericKinds

variable {accessor : Accessor α} {provider : Provider} {rule : Rule}

/-- No accessor reads undefined rules. -/
theorem IsTyped.undefined_not_mem (htyped : accessor.IsTyped) : .undefined ∉ accessor.kinds := by
  cases htyped <;> decide

/-- The values of rules that an accessor reads are defined. -/
theorem IsTyped.isUndefined_of_mem (htyped : accessor.IsTyped) {value : Value}
    (hkind : value.kind ∈ accessor.kinds) : value.isUndefined = false := by
  cases value with
  | undefined => exact absurd hkind htyped.undefined_not_mem
  | plain | expression | conditional => rfl

theorem toNumber?_eq_error_iff {p : Plain} {e : ReadError} :
    p.toNumber? = .error e ↔ ∃ n : Int, p = .number (.integer n) ∧
      (Number.integer n).toFloat? = none := by
  cases p with
  | number m =>
      cases m with
      | integer n => cases htoo : (Number.integer n).toFloat? <;> simp [Plain.toNumber?, htoo]
      | real x => simp [Plain.toNumber?, Number.toFloat?]
      | nan => simp [Plain.toNumber?, Number.toFloat?]
  | boolean b | string s | font f | color c => simp [Plain.toNumber?]

/-- Conversion fails for the accessors of numbers alone, and only for an integer beyond all
doubles. -/
theorem IsTyped.convert_eq_error_iff (htyped : accessor.IsTyped) {p : Plain} {e : ReadError} :
    accessor.convert p = .error e ↔ accessor.IsNumeric ∧
      ∃ n : Int, p = .number (.integer n) ∧ (Number.integer n).toFloat? = none := by
  have hnumber {β : Type} (f : Option Float → Option β) :
      (do return f (← p.toNumber?) : Except ReadError (Option β)) = .error e ↔
        ∃ n : Int, p = .number (.integer n) ∧ (Number.integer n).toFloat? = none := by
    rw [← toNumber?_eq_error_iff (e := e)]
    cases p.toNumber? with
    | error e' =>
        constructor
        · intro hfails
          cases hfails
          rfl
        · intro hfails
          cases hfails
          rfl
    | ok x =>
        constructor
        · intro hfails
          cases hfails
        · intro hfails
          cases hfails
  cases htyped with
  | integer | boolean => exact (hnumber _).trans (and_iff_right rfl).symm
  | float => exact toNumber?_eq_error_iff.trans (and_iff_right rfl).symm
  | string | font | color =>
      have hother (kind : Kind) : [kind] ≠ numericKinds := by simp [numericKinds]
      refine iff_of_false ?_ fun hboth => hother _ hboth.1
      cases p <;> (intro hfails; cases hfails)

theorem mismatch_code_mem {found : String} :
    (accessor.mismatch rule found).code ∈ DiagnosticCode.fallbackCodes := by
  simp [mismatch, DiagnosticCode.fallbackCodes]

/-- A rule of a kind that an accessor does not read is a mismatch. -/
theorem read_of_not_mem (hkind : rule.value.kind ∉ accessor.kinds) (default : α) :
    accessor.read provider rule default
      = ⟨.ok default, [.reported (accessor.mismatch rule rule.value.kind.text)]⟩ := by
  rw [read, read?, if_neg hkind]
  rfl

theorem outcome_read?_of_not_mem (hkind : rule.value.kind ∉ accessor.kinds) :
    (accessor.read? provider rule).outcome = .ok none ∧
      (accessor.read? provider rule).Reports DiagnosticCode.fallbackCodes := by
  rw [read?, if_neg hkind]
  exact ⟨rfl, reports_report_bind mismatch_code_mem _⟩

/-- A rule without a value to be had is not read, and the diagnostic of its value says why. -/
theorem outcome_read?_of_unavailable (hkind : rule.value.kind ∈ accessor.kinds)
    (hnone : (rule.value.resolve provider (some rule.key) :
      Logged Event ReadError Resolution).outcome = .ok .unavailable)
    (hreports : (rule.value.resolve provider (some rule.key) :
      Logged Event ReadError Resolution).Reports DiagnosticCode.fallbackCodes) :
    (accessor.read? provider rule).outcome = .ok none ∧
      (accessor.read? provider rule).Reports DiagnosticCode.fallbackCodes := by
  rw [read?, if_pos hkind, rule.content_eq_resolve]
  exact ⟨outcome_bind_eq_ok_iff.mpr ⟨_, hnone, rfl⟩, hreports.bind _⟩

/-- A rule with a value is read as its conversion, and a value that does not fit is reported. -/
theorem outcome_read?_of_value (hkind : rule.value.kind ∈ accessor.kinds) {p : Plain}
    (hvalue : (rule.value.resolve provider (some rule.key) :
      Logged Event ReadError Resolution).outcome = .ok (.value p)) :
    (accessor.read? provider rule).outcome = accessor.convert p ∧
      (accessor.convert p = .ok none →
        (accessor.read? provider rule).Reports DiagnosticCode.fallbackCodes) := by
  have hofExcept : (ofExcept (accessor.convert p) : Logged Event ReadError (Option α)).outcome
      = accessor.convert p := rfl
  rw [read?, if_pos hkind, rule.content_eq_resolve]
  constructor
  · rw [bind_of_ok hvalue]
    cases hconvert : accessor.convert p with
    | error e => simp only [bind_of_error (hofExcept.trans hconvert)]
    | ok result =>
        simp only [bind_of_ok (hofExcept.trans hconvert)]
        cases result <;> rfl
  · intro hconvert
    apply Reports.bind_of_ok hvalue
    apply Reports.bind_of_ok (hofExcept.trans hconvert)
    exact reports_report_bind mismatch_code_mem _

/-- A read by one of the accessors gives a value, or gives none and says why, or fails. -/
theorem IsTyped.read?_cases (htyped : accessor.IsTyped) (provider : Provider) (rule : Rule) :
    (∃ a, (accessor.read? provider rule).outcome = .ok (some a)) ∨
      ((accessor.read? provider rule).outcome = .ok none ∧
        (accessor.read? provider rule).Reports DiagnosticCode.fallbackCodes) ∨
      ∃ e, (accessor.read? provider rule).outcome = .error e := by
  by_cases hkind : rule.value.kind ∈ accessor.kinds
  · have hdefined : rule.value.isUndefined = false := htyped.isUndefined_of_mem hkind
    have hsettles : Settles (rule.value.resolve provider (some rule.key) :
      Logged Event ReadError Resolution) := Value.resolve_settles rule.value hdefined
    rcases hsettles with ⟨p, hp⟩ | ⟨hnone, hreports⟩
    · obtain ⟨houtcome, hreports⟩ := outcome_read?_of_value hkind hp
      cases hconvert : accessor.convert p with
      | error e => exact .inr (.inr ⟨e, houtcome.trans hconvert⟩)
      | ok result =>
          cases result with
          | some a => exact .inl ⟨a, houtcome.trans hconvert⟩
          | none => exact .inr (.inl ⟨houtcome.trans hconvert, hreports hconvert⟩)
    · exact .inr (.inl (outcome_read?_of_unavailable hkind hnone hreports))
  · exact .inr (.inl (outcome_read?_of_not_mem hkind))

/-- A read fails when a rule that counts as a number overflows. -/
theorem IsTyped.outcome_read?_eq_error_iff (htyped : accessor.IsTyped) {e : ReadError} :
    (accessor.read? provider rule).outcome = .error e ↔
      accessor.IsNumeric ∧ rule.value.kind ∈ numericKinds ∧ rule.Overflows provider := by
  by_cases hkind : rule.value.kind ∈ accessor.kinds
  · obtain ⟨resolution, hresolution, -⟩ :=
      Value.resolve_spec (ε := ReadError) provider (some rule.key) rule.value
    cases resolution with
    | value p =>
        rw [(outcome_read?_of_value hkind hresolution).1, htyped.convert_eq_error_iff]
        refine and_congr_right fun hnumeric => ?_
        rw [← hnumeric, and_iff_right hkind, Rule.Overflows, hresolution]
        constructor
        · rintro ⟨n, rfl, htoo⟩
          exact ⟨n, rfl, htoo⟩
        · rintro ⟨n, hn, htoo⟩
          cases hn
          exact ⟨n, rfl, htoo⟩
    | undefined | unavailable =>
        refine iff_of_false ?_ ?_
        · rw [read?, if_pos hkind, rule.content_eq_resolve, bind_of_ok hresolution]
          nofun
        · rintro ⟨-, -, n, hn, -⟩
          rw [hresolution] at hn
          cases hn
  · rw [(outcome_read?_of_not_mem hkind).1]
    refine iff_of_false nofun ?_
    rintro ⟨hnumeric, hnumber, -⟩
    exact hkind (hnumeric ▸ hnumber)

/-- With a default a read fails as without one. -/
theorem outcome_read_eq_error_iff {default : α} {e : ReadError} :
    (accessor.read provider rule default).outcome = .error e ↔
      (accessor.read? provider rule).outcome = .error e :=
  outcome_bind_pure_eq_error_iff

end Accessor

/-- A read by the rule's own kind fails when the rule counts as a number and overflows. -/
theorem Rule.outcome_resolve_eq_error_iff {provider : Provider} {rule : Rule}
    {default : Option Plain} {e : ReadError} :
    (rule.resolve provider default).outcome = .error e ↔
      rule.value.kind ∈ Accessor.numericKinds ∧ rule.Overflows provider := by
  rw [resolve, outcome_bind_pure_eq_error_iff, resolve?]
  cases hkind : rule.value.kind with
  | number | expression =>
      simp only
      rw [outcome_bind_pure_eq_error_iff, Accessor.outcome_read_eq_error_iff,
        Accessor.IsTyped.float.outcome_read?_eq_error_iff, hkind]
      exact and_iff_right rfl
  | boolean =>
      simp only
      rw [outcome_bind_pure_eq_error_iff, Accessor.outcome_read_eq_error_iff,
        Accessor.IsTyped.boolean.outcome_read?_eq_error_iff, hkind]
      exact and_iff_right rfl
  | string =>
      simp only
      rw [outcome_bind_pure_eq_error_iff, Accessor.outcome_read_eq_error_iff,
        Accessor.IsTyped.string.outcome_read?_eq_error_iff, hkind]
      simp [Accessor.numericKinds]
  | font =>
      simp only
      rw [outcome_bind_pure_eq_error_iff, Accessor.IsTyped.font.outcome_read?_eq_error_iff, hkind]
      simp [Accessor.numericKinds]
  | color =>
      simp only
      rw [outcome_bind_pure_eq_error_iff, Accessor.IsTyped.color.outcome_read?_eq_error_iff, hkind]
      simp [Accessor.numericKinds]
  | undefined => simp [Accessor.numericKinds]

end Stylesheet
