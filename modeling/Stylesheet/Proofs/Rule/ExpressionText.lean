import Stylesheet.Environment.Snapshot
import Stylesheet.Proofs.Rule.Literal
import Stylesheet.Proofs.Rule.Reading

/-!
# Expressions as they are printed

An expression is printed as the literal of its source.  Whatever the source, it is read from this
literal again, without the white space around it, and so the expression is too.
-/

namespace Stylesheet

open Logged

namespace Literal

open Text

/-- An expression literal of any text, braces and dollar signs included. -/
theorem body?_of_toList {text : String} {before inner after : List Char}
    (hbefore : ∀ c ∈ before, isBlank c = true) (hafter : ∀ c ∈ after, isBlank c = true)
    (htext : text.toList = before ++ ('$' :: '\x7b' :: (inner ++ ['\x7d'])) ++ after) :
    body? text = some (String.ofList (trim inner)) := by
  refine body?_eq_some_iff.mpr ⟨inner, ?_, String.toList_ofList⟩
  rw [htext, trim_of_blanks hbefore hafter]
  -- a literal starts with a dollar sign and ends with a brace
  refine trim_eq_self (fun c hc => ?_) fun c hc => ?_
  · cases hc
    decide
  · rw [← List.cons_append, ← List.cons_append, List.getLast?_concat] at hc
    cases hc
    decide

end Literal

namespace Expression

theorem toList_text (e : Expression) :
    e.text.toList = '$' :: '\x7b' :: (e.source.toList ++ ['\x7d']) := by
  simp [text]

/-- An expression is printed as a literal of its source. -/
theorem body?_text (e : Expression) :
    Literal.body? e.text = some (String.ofList (Text.trim e.source.toList)) := by
  refine Literal.body?_of_toList (List.forall_mem_nil _) (List.forall_mem_nil _) ?_
  rw [toList_text, List.nil_append, List.append_nil]

end Expression

namespace RuleContext

variable {context : RuleContext} {text body : String} {e : Expression}

theorem parseText_of_body? (hbody : Literal.body? text = some body) :
    context.parseText text
      = (do return .expression (← Expression.compileReporting body context.key)) := by
  unfold parseText
  rw [hbody]

/-- A text is read as an expression exactly if it is a literal, whose body is compiled. -/
theorem outcome_parseText_eq_expression_iff :
    (context.parseText text).outcome = .ok (.expression e) ↔
      ∃ body, Literal.body? text = some body ∧ e = Expression.compile body := by
  constructor
  · apply parseText_cases (motive := fun reading => reading.outcome = .ok (.expression e) →
      ∃ body, Literal.body? text = some body ∧ e = Expression.compile body) context text
    case expression =>
      intro body hbody hread
      obtain ⟨compiled, hcompiled, hvalue⟩ := outcome_bind_eq_ok_iff.mp hread
      rw [Expression.outcome_compileReporting] at hcompiled
      cases hcompiled
      cases hvalue
      exact ⟨body, hbody, rfl⟩
    case font =>
      intro _ _ _ _ _ hread
      obtain ⟨_, -, hvalue⟩ := outcome_bind_eq_ok_iff.mp hread
      cases hvalue
    case fontCount =>
      intro _ _ _ hread
      cases hread
    case color =>
      intro _ _ _ _ _ _ _ hread
      cases hread
    case badColor =>
      intro _ _ _ _ _ _ _ _ hread
      cases hread
    case colorCount =>
      intro _ _ _ _ hread
      cases hread
    case string =>
      intro _ _ _ hread
      cases hread
  · rintro ⟨body, hbody, rfl⟩
    rw [parseText_of_body? hbody]
    exact outcome_bind_eq_ok_iff.mpr ⟨_, Expression.outcome_compileReporting body _, rfl⟩

/-- What is printed of an expression that was read is a literal of the same body. -/
theorem body?_text_compile (hbody : Literal.body? text = some body) :
    Literal.body? (Expression.compile body).text = some body := by
  rw [Expression.body?_text]
  show some (String.ofList (Text.trim body.toList)) = some body
  rw [Literal.trim_body hbody, String.ofList_toList]

/-- The body of a literal is the text inside it, whatever that is, without the white space at its
ends.  An expression that has been read is read again from how it is printed: the same source, with
the same tree or the same reason to have none, and the same is recorded. -/
theorem expression_literals_roundTrip :
    (∀ inner before after : String, (∀ c ∈ before.toList, Text.isBlank c = true) →
      (∀ c ∈ after.toList, Text.isBlank c = true) →
        Literal.body? (before ++ ("$\x7b" ++ inner ++ "\x7d") ++ after)
          = some (String.ofList (Text.trim inner.toList))) ∧
      ∀ (context : RuleContext) (text : String) (e : Expression),
        (context.parseText text).outcome = .ok (.expression e) →
          (∀ other : RuleContext, (other.parseText e.text).outcome = .ok (.expression e)) ∧
            context.parseText e.text = context.parseText text := by
  constructor
  · intro inner before after hbefore hafter
    exact Literal.body?_of_toList hbefore hafter (by simp)
  · intro context text e hread
    obtain ⟨body, hbody, rfl⟩ := outcome_parseText_eq_expression_iff.mp hread
    have hprinted := body?_text_compile hbody
    refine ⟨fun other => ?_, ?_⟩
    · exact outcome_parseText_eq_expression_iff.mpr ⟨body, hprinted, rfl⟩
    · rw [parseText_of_body? hprinted, parseText_of_body? hbody]

/-- A body of braces and line feeds, and an expression that does not compile. -/
theorem expression_literals_roundTrip_braces :
    Literal.body? "\n$\x7b \x7da\n$\x7b\x7d\x7d " = some "\x7da\n$\x7b\x7d" ∧
      (RuleContext.parseText ⟨({} : Environment).provider, none⟩
        (Expression.compile "1 +").text).outcome = .ok (.expression (Expression.compile "1 +")) := by
  obtain ⟨hliterals, hprinted⟩ := expression_literals_roundTrip
  have hbraces := hliterals " \x7da\n$\x7b\x7d" "\n" " "
    (List.all_eq_true.mp (by decide)) (List.all_eq_true.mp (by decide))
  have hread : (RuleContext.parseText ⟨({} : Environment).provider, none⟩ " $\x7b1 + \x7d").outcome
      = .ok (.expression (Expression.compile "1 +")) :=
    outcome_parseText_eq_expression_iff.mpr ⟨"1 +", by decide +kernel, rfl⟩
  exact ⟨hbraces, (hprinted _ _ _ hread).1 _⟩

end RuleContext

end Stylesheet
