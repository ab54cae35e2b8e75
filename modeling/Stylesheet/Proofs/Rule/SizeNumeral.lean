import Stylesheet.Environment.Snapshot
import Stylesheet.Proofs.Decimal.Nearest
import Stylesheet.Proofs.Decimal.Numeral
import Stylesheet.Proofs.Rule.Causes

/-!
# Font sizes as numerals

A font size that is no expression is the longest numeral its text starts with, as the nearest double.
What follows the numeral is ignored; a text that starts with none is reported and counts as zero.
Arguments of calls come trimmed, so there is no white space to skip in front of a numeral.
-/

namespace Stylesheet

open Logged
open Decimal

namespace RuleContext

variable {ε : Type} {context : RuleContext} {text : String}

theorem fontSize_of_isLongest {numeral : Numeral} {front : List Char}
    (hliteral : Literal.body? text = none) (hlongest : numeral.IsLongest front text.toList) :
    (context.fontSize text : Logged Event ε Float) = pure numeral.toFloat := by
  obtain ⟨rest, hrest⟩ := hlongest.starts
  have htaken : takeNumeral? text.toList = some (numeral, rest) :=
    takeNumeral?_eq_some_iff.mpr ⟨front, hrest.symm, hlongest⟩
  unfold fontSize
  rw [hliteral]
  dsimp only
  rw [htaken]

theorem fontSize_of_no_numeral (hliteral : Literal.body? text = none)
    (hnone : ∀ front, front <+: text.toList → ¬ IsNumeral front) :
    (context.fontSize text : Logged Event ε Float)
      = report (context.noNumber text) >>= fun _ => pure 0 := by
  unfold fontSize
  rw [hliteral]
  dsimp only
  rw [takeNumeral?_eq_none_iff.mpr hnone]
  rfl

/-- A size that is no expression is found without a failure.  If the text starts with a numeral, the
size is the longest such numeral, read as a number would be that is written alone, and correctly
rounded; nothing is recorded then.  It is zero, with the one diagnostic that it is no number, exactly
if the text starts with no numeral. -/
theorem fontSize_eq_longest_numeral (context : RuleContext) {text : String}
    (hliteral : Literal.body? text = none) :
    (∃ size, (context.fontSize text : Logged Event ε Float).outcome = .ok size) ∧
      ((∃ front, front <+: text.toList ∧ IsNumeral front) →
        ∃ (numeral : Numeral) (longest : List Char) (size : Float),
          numeral.IsLongest longest text.toList ∧ readFloat? longest = some size ∧
            Rounds numeral.negative numeral.magnitude size ∧
            (context.fontSize text : Logged Event ε Float) = pure size) ∧
      ((∃ d, d.code = .invalidNumber ∧
          (context.fontSize text : Logged Event ε Float).diagnostics = [d] ∧
          (context.fontSize text : Logged Event ε Float).outcome = .ok 0) ↔
        ∀ front, front <+: text.toList → ¬ IsNumeral front) := by
  have hfound (hsome : ∃ front, front <+: text.toList ∧ IsNumeral front) :
      ∃ (numeral : Numeral) (longest : List Char) (size : Float),
        numeral.IsLongest longest text.toList ∧ readFloat? longest = some size ∧
          Rounds numeral.negative numeral.magnitude size ∧
          (context.fontSize text : Logged Event ε Float) = pure size := by
    obtain ⟨front, hstarts, hnumeral⟩ := hsome
    obtain ⟨numeral, longest, hlongest⟩ := exists_isLongest hstarts hnumeral
    exact ⟨numeral, longest, _, hlongest, hlongest.written.readFloat?_eq, numeral.rounds_toFloat,
      fontSize_of_isLongest hliteral hlongest⟩
  have hrefused (hnone : ∀ front, front <+: text.toList → ¬ IsNumeral front) :
      (context.fontSize text : Logged Event ε Float).diagnostics = [context.noNumber text] ∧
        (context.fontSize text : Logged Event ε Float).outcome = .ok 0 := by
    rw [fontSize_of_no_numeral hliteral hnone, diagnostics_bind_pure, diagnostics_report]
    exact ⟨rfl, rfl⟩
  refine ⟨?_, hfound, ?_, fun hnone => ⟨_, rfl, hrefused hnone⟩⟩
  · by_cases hsome : ∃ front, front <+: text.toList ∧ IsNumeral front
    · obtain ⟨_, _, size, -, -, -, hsize⟩ := hfound hsome
      exact ⟨size, by rw [hsize, outcome_pure]⟩
    · push Not at hsome
      exact ⟨0, (hrefused hsome).2⟩
  · rintro ⟨d, -, hdiagnostics, -⟩ front hstarts hnumeral
    obtain ⟨_, _, size, -, -, -, hsize⟩ := hfound ⟨front, hstarts, hnumeral⟩
    rw [hsize, diagnostics_pure] at hdiagnostics
    cases hdiagnostics

/-- A sign, a fraction without a whole part, an exponent, and a unit that is ignored. -/
theorem fontSize_eq_longest_numeral_unit :
    Literal.body? "+.5e-3px" = none ∧
      ∃ (numeral : Numeral) (size : Float),
        numeral.IsLongest "+.5e-3".toList "+.5e-3px".toList ∧
          Rounds numeral.negative numeral.magnitude size ∧
          (RuleContext.fontSize ⟨({} : Environment).provider, none⟩ "+.5e-3px" :
            Logged Event Empty Float) = pure size := by
  have hliteral : Literal.body? "+.5e-3px" = none := by decide
  have htaken : takeNumeral? "+.5e-3px".toList = some (⟨false, [], ['5'], -3⟩, ['p', 'x']) := rfl
  obtain ⟨front, hsplit, hfront⟩ := takeNumeral?_eq_some_iff.mp htaken
  obtain rfl : front = "+.5e-3".toList := (List.append_cancel_right hsplit).symm
  obtain ⟨numeral, longest, size, hlongest, -, hrounds, hsize⟩ :=
    (fontSize_eq_longest_numeral ⟨({} : Environment).provider, none⟩ hliteral).2.1
      ⟨_, hfront.starts, _, hfront.written⟩
  obtain ⟨rfl, rfl⟩ := hlongest.unique hfront
  exact ⟨hliteral, _, size, hfront, hrounds, hsize⟩

end RuleContext

end Stylesheet
