import Stylesheet.Proofs.Rule.Default
import Stylesheet.Proofs.Sheet.Source

/-!
# Reads from a sheet

Every rule of a loaded sheet is read from an entry of its document.  Reading the rule then gives
a value, or the default with a diagnostic, unless the document holds an integer beyond all doubles.
-/

namespace Stylesheet

open Logged

namespace Sheet

variable {provider : Provider}

/-- A rule of a loaded sheet overflows only when the document holds an integer beyond all
doubles. -/
theorem exists_holds_of_overflows {root : Node} {sheet : Sheet} {style name : String}
    {rule : Rule} (hsheet : (ofNode provider root).outcome = .ok sheet)
    (hrule : sheet.rule? style name = some rule) {reader : Provider}
    (hoverflows : rule.Overflows reader) :
    ∃ n : Int, root.Holds (.scalar (.number (.integer n))) ∧
      (Number.integer n).toFloat? = none := by
  obtain ⟨node, hsource, hread⟩ := (rule?_eq_some_iff hsheet).mp hrule
  obtain ⟨value, hvalue, hmade⟩ := outcome_bind_eq_ok_iff.mp hread
  cases hmade
  obtain ⟨n, hn, htoo⟩ := hoverflows
  obtain ⟨resolution, hresolution, hmay, -⟩ :=
    Value.resolve_spec (ε := ReadError) reader (some name) value
  rw [hn] at hresolution
  cases hresolution
  exact ⟨n, hsource.holds (Value.reaches_of_mayBe_integer hvalue hmay), htoo⟩

/-- Reading a rule of a loaded sheet gives a value exactly when the rule does not overflow or is not
read as a number, and the rules of a document without integers beyond all doubles never overflow. -/
theorem gives_value_iff_not_overflows {root : Node} {sheet : Sheet} {style name : String}
    {rule : Rule} (hsheet : (ofNode provider root).outcome = .ok sheet)
    (hrule : sheet.rule? style name = some rule) (reader : Provider) :
    (∀ {α : Type} (accessor : Accessor α), accessor.IsTyped → ∀ default,
      (∃ a, (accessor.read reader rule default).outcome = .ok a) ↔
        ¬ (accessor.IsNumeric ∧ rule.value.kind ∈ Accessor.numericKinds ∧
          rule.Overflows reader)) ∧
      (∀ default, (∃ p, (rule.resolve reader default).outcome = .ok p) ↔
        ¬ (rule.value.kind ∈ Accessor.numericKinds ∧ rule.Overflows reader)) ∧
      (rule.Overflows reader → ∃ n : Int, root.Holds (.scalar (.number (.integer n))) ∧
        (Number.integer n).toFloat? = none) := by
  refine ⟨?_, ?_, exists_holds_of_overflows hsheet hrule⟩
  · intro α accessor htyped default
    rw [exists_outcome_ok_iff, not_iff_not]
    simp only [Accessor.outcome_read_eq_error_iff, htyped.outcome_read?_eq_error_iff]
    exact ⟨fun ⟨_, hfails⟩ => hfails, fun hfails => ⟨.integerTooLarge, hfails⟩⟩
  · intro default
    rw [exists_outcome_ok_iff, not_iff_not]
    simp only [Rule.outcome_resolve_eq_error_iff]
    exact ⟨fun ⟨_, hfails⟩ => hfails, fun hfails => ⟨.integerTooLarge, hfails⟩⟩

def widthDocument (n : Int) : Node :=
  .mapping [(.scalar (.text "card"), .mapping [integerEntry "width" n])]

def widthSheet (n : Int) : Sheet :=
  ⟨.ofList [("card", .ofList [("width", integerRule "width" n)])]⟩

theorem ofNode_widthDocument (provider : Provider) (n : Int) :
    (ofNode provider (widthDocument n)).outcome = .ok (widthSheet n) := rfl

theorem rule?_widthSheet (n : Int) :
    (widthSheet n).rule? "card" "width" = some (integerRule "width" n) := rfl

/-- The rule is that integer, whoever reads it. -/
theorem overflows_integerRule_iff {name : String} {n : Int} {reader : Provider} :
    (integerRule name n).Overflows reader ↔ (Number.integer n).toFloat? = none := by
  constructor
  · rintro ⟨m, hm, htoo⟩
    rw [integerRule, Value.resolve] at hm
    cases hm
    exact htoo
  · intro htoo
    refine ⟨n, ?_, htoo⟩
    rw [integerRule, Value.resolve]
    rfl

/-- An integer of which no double is near. -/
def hugeWidth : Int := Nat.pow 10 309

theorem toFloat?_width : (Number.integer 320).toFloat? ≠ none := by
  have hsome : (Number.integer 320).toFloat?.isSome = true := by decide +kernel
  exact Option.isSome_iff_ne_none.mp hsome

theorem toFloat?_hugeWidth : (Number.integer hugeWidth).toFloat? = none := by
  have hnone : (Number.integer hugeWidth).toFloat?.isNone = true := by decide +kernel
  exact Option.isNone_iff_eq_none.mp hnone

/-- The rule is loaded, and reading it as a number gives no value for any default. -/
theorem not_gives_value_hugeWidth :
    (ofNode ({} : Environment).provider (widthDocument hugeWidth)).outcome
        = .ok (widthSheet hugeWidth) ∧
      (widthSheet hugeWidth).rule? "card" "width" = some (integerRule "width" hugeWidth) ∧
      (∀ default, ¬ ∃ a, (Accessor.float.read ({} : Environment).provider
        (integerRule "width" hugeWidth) default).outcome = .ok a) ∧
      (∀ default, ¬ ∃ p, ((integerRule "width" hugeWidth).resolve ({} : Environment).provider
        default).outcome = .ok p) := by
  have hoverflows : (integerRule "width" hugeWidth).Overflows ({} : Environment).provider :=
    overflows_integerRule_iff.mpr toFloat?_hugeWidth
  have hnumber : (integerRule "width" hugeWidth).value.kind ∈ Accessor.numericKinds :=
    List.mem_cons_self
  refine ⟨ofNode_widthDocument _ _, rule?_widthSheet _, ?_, ?_⟩
  · intro default
    rw [exists_outcome_ok_iff, not_not]
    exact ⟨.integerTooLarge, Accessor.outcome_read_eq_error_iff.mpr
      (Accessor.IsTyped.float.outcome_read?_eq_error_iff.mpr ⟨rfl, hnumber, hoverflows⟩)⟩
  · intro default
    rw [exists_outcome_ok_iff, not_not]
    exact ⟨.integerTooLarge, Rule.outcome_resolve_eq_error_iff.mpr ⟨hnumber, hoverflows⟩⟩

/-- A width that fits is read, and one that does not is read as a string alone. -/
theorem gives_value_iff_not_overflows_widths :
    (∃ a, (Accessor.float.read ({} : Environment).provider
        (integerRule "width" 320) 0).outcome = .ok a) ∧
      (∃ a, (Accessor.string.read ({} : Environment).provider
        (integerRule "width" hugeWidth) "").outcome = .ok a) ∧
      ¬ ∃ a, (Accessor.integer.read ({} : Environment).provider
        (integerRule "width" hugeWidth) 0).outcome = .ok a := by
  obtain ⟨hsmall, -⟩ := gives_value_iff_not_overflows
    (ofNode_widthDocument ({} : Environment).provider 320) (rule?_widthSheet 320)
    ({} : Environment).provider
  obtain ⟨hhuge, -⟩ := gives_value_iff_not_overflows
    (ofNode_widthDocument ({} : Environment).provider hugeWidth) (rule?_widthSheet hugeWidth)
    ({} : Environment).provider
  refine ⟨(hsmall _ .float 0).mpr ?_, (hhuge _ .string "").mpr ?_, fun hvalue => ?_⟩
  · rintro ⟨-, -, hoverflows⟩
    exact toFloat?_width (overflows_integerRule_iff.mp hoverflows)
  · rintro ⟨hnumeric, -⟩
    simp [Accessor.IsNumeric, Accessor.string, Accessor.numericKinds] at hnumeric
  · exact (hhuge _ .integer 0).mp hvalue
      ⟨rfl, List.mem_cons_self, overflows_integerRule_iff.mpr toFloat?_hugeWidth⟩

/-- A read through a sheet, with or without a rule. -/
theorem read?_cases {α : Type} {accessor : Accessor α} (htyped : accessor.IsTyped) (sheet : Sheet)
    (reader : Provider) (style name : String) :
    (∃ a, (sheet.read? accessor reader style name).outcome = .ok (some a)) ∨
      ((sheet.read? accessor reader style name).outcome = .ok none ∧
        (sheet.read? accessor reader style name).Reports DiagnosticCode.fallbackCodes) ∨
      ∃ rule, sheet.rule? style name = some rule ∧ rule.Overflows reader := by
  rw [read?]
  cases hrule : sheet.rule? style name with
  | none =>
      have hcode : (unknownRule style name).code ∈ DiagnosticCode.fallbackCodes := by
        simp [unknownRule, DiagnosticCode.fallbackCodes]
      exact .inr (.inl ⟨rfl, reports_report_bind hcode _⟩)
  | some rule =>
      rcases htyped.read?_cases reader rule with hvalue | hnone | ⟨e, he⟩
      · exact .inl hvalue
      · exact .inr (.inl hnone)
      · exact .inr (.inr ⟨rule, rfl, (htyped.outcome_read?_eq_error_iff.mp he).2.2⟩)

/-- No read falls back in silence: what a read records does not depend on the default, and either it
has one value whatever the default, or it gives the default and says why. -/
theorem read_eq_value_or_reports_default {α : Type} {accessor : Accessor α}
    (htyped : accessor.IsTyped) (sheet : Sheet) (reader : Provider) (style name : String)
    (hfits : ∀ rule, sheet.rule? style name = some rule → rule.value.IntegersFit) :
    (∀ default default', (sheet.read accessor reader style name default).diagnostics
      = (sheet.read accessor reader style name default').diagnostics) ∧
      ((∃ a, ∀ default, (sheet.read accessor reader style name default).outcome = .ok a) ∨
        ∀ default, (sheet.read accessor reader style name default).outcome = .ok default ∧
          (sheet.read accessor reader style name default).Reports
            DiagnosticCode.fallbackCodes) := by
  refine ⟨?_, ?_⟩
  · intro default default'
    rw [read, diagnostics_bind_pure, read, diagnostics_bind_pure]
  · rcases read?_cases htyped sheet reader style name with
      ⟨a, ha⟩ | ⟨hnone, hreports⟩ | ⟨rule, hrule, hoverflows⟩
    · exact .inl ⟨a, fun default => outcome_bind_eq_ok_iff.mpr ⟨some a, ha, rfl⟩⟩
    · exact .inr fun default => ⟨outcome_bind_eq_ok_iff.mpr ⟨none, hnone, rfl⟩, hreports.bind _⟩
    · exact absurd hoverflows ((hfits rule hrule).not_overflows reader)

/-- A width is there and is read; a height is not, and the read says so. -/
theorem read_eq_value_or_reports_default_width :
    (∀ rule, (widthSheet 320).rule? "card" "width" = some rule → rule.value.IntegersFit) ∧
      (∀ rule, (widthSheet 320).rule? "card" "height" = some rule → rule.value.IntegersFit) ∧
      (∃ a, ∀ default, ((widthSheet 320).read Accessor.boolean ({} : Environment).provider "card"
        "width" default).outcome = .ok a) ∧
      ∀ default, ((widthSheet 320).read Accessor.boolean ({} : Environment).provider "card"
        "height" default).Reports DiagnosticCode.fallbackCodes := by
  have hwidth : ∀ rule, (widthSheet 320).rule? "card" "width" = some rule →
      rule.value.IntegersFit := by
    intro rule hrule n hn
    rw [rule?_widthSheet] at hrule
    cases hrule
    cases hn
    exact toFloat?_width
  have hheight : ∀ rule, (widthSheet 320).rule? "card" "height" = some rule →
      rule.value.IntegersFit := by
    intro rule hrule
    cases hrule
  obtain ⟨-, hread⟩ := read_eq_value_or_reports_default .boolean (widthSheet 320)
    ({} : Environment).provider "card" "width" hwidth
  obtain ⟨-, hmissing⟩ := read_eq_value_or_reports_default .boolean (widthSheet 320)
    ({} : Environment).provider "card" "height" hheight
  refine ⟨hwidth, hheight, ?_, ?_⟩
  · rcases hread with hvalue | hdefault
    · exact hvalue
    · obtain ⟨-, d, hd, -⟩ := hdefault false
      cases hd
  · rcases hmissing with ⟨a, ha⟩ | hdefault
    · -- the outcome is the default, so it is not one value for all defaults
      have hfalse : (.ok false : Except ReadError Bool) = .ok a := ha false
      have htrue : (.ok true : Except ReadError Bool) = .ok a := ha true
      cases hfalse.trans htrue.symm
    · exact fun default => (hdefault default).2

end Sheet

end Stylesheet
