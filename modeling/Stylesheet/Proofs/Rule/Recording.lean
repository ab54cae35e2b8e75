import Stylesheet.Proofs.Recording
import Stylesheet.Proofs.Rule.Causes
import Stylesheet.Rule.Read

/-!
# For which rules diagnostics are recorded

The key of a rule is handed on to everything that is done for the rule: while its value is made from
a node, and when it is read, to conditions, to expressions at any depth, and to what is said of a
value that does not fit.  So all these diagnostics name the rule.
-/

namespace Stylesheet

open Logged

variable {ε α : Type} (provider : Provider) (key : Option String)

theorem Expression.recordsFor_evaluate? (e : Expression) :
    (e.evaluate? provider key : Logged Event ε (Option Float)).RecordsFor key := by
  intro d hd
  rw [diagnostics_evaluate?, Option.mem_toList] at hd
  obtain ⟨reason, -, rfl⟩ := failure?_eq_some_iff.mp hd
  rfl

theorem Expression.recordsFor_evaluate (e : Expression) :
    (e.evaluate provider key : Logged Event ε Float).RecordsFor key :=
  (recordsFor_evaluate? provider key e).bind fun _ => recordsFor_pure _

namespace Value

/-- Making a value from a node names the rule that it is made for. -/
theorem recordsFor_ofNode (context : RuleContext) (node : Node) :
    (ofNode context node).RecordsFor context.key := by
  intro d hd
  obtain ⟨inner, -, hcauses⟩ := exists_causes_of_mem_diagnostics hd
  exact hcauses.rule_eq

mutual

/-- Resolving a value names the rule that it is resolved for, at every depth. -/
theorem recordsFor_resolve :
    ∀ value : Value, (value.resolve provider key : Logged Event ε Resolution).RecordsFor key
  | .undefined => by
      rw [resolve]
      exact recordsFor_pure _
  | .plain value => by
      rw [resolve]
      exact recordsFor_pure _
  | .expression e => by
      rw [resolve]
      apply (Expression.recordsFor_evaluate? provider key e).bind
      rintro (_ | x) <;> exact recordsFor_pure _
  | .conditional kind branches => by
      rw [resolve]
      exact recordsFor_resolveBranches branches

theorem recordsFor_resolveBranches :
    ∀ branches : List (Branch Value),
      (resolveBranches provider key branches : Logged Event ε Resolution).RecordsFor key
  | [] => by
      rw [resolveBranches]
      exact (recordsFor_report rfl).bind fun _ => recordsFor_pure _
  | branch :: rest => by
      rw [resolveBranches]
      split
      · exact recordsFor_resolveBranches rest
      · apply (Expression.recordsFor_evaluate provider key branch.condition).bind
        intro x
        split
        · exact recordsFor_resolve branch.value
        · exact recordsFor_resolveBranches rest

end

end Value

namespace Accessor

/-- A typed read names the rule that is read. -/
theorem recordsFor_read? (accessor : Accessor α) (rule : Rule) :
    (accessor.read? provider rule).RecordsFor (some rule.key) := by
  unfold read?
  split
  · rw [rule.content_eq_resolve]
    apply (Value.recordsFor_resolve provider (some rule.key) rule.value).bind
    rintro (plain | _ | _)
    · apply (recordsFor_ofExcept _).bind
      rintro (_ | result)
      · exact (recordsFor_report rfl).bind fun _ => recordsFor_pure _
      · exact recordsFor_pure _
    · exact recordsFor_pure _
    · exact recordsFor_pure _
  · exact (recordsFor_report rfl).bind fun _ => recordsFor_pure _

theorem recordsFor_read (accessor : Accessor α) (rule : Rule) (default : α) :
    (accessor.read provider rule default).RecordsFor (some rule.key) :=
  (recordsFor_read? provider accessor rule).bind fun _ => recordsFor_pure _

end Accessor

/-- A read of whatever kind names the rule that is read. -/
theorem Rule.recordsFor_resolve (rule : Rule) (default : Option Plain) :
    (rule.resolve provider default).RecordsFor (some rule.key) := by
  have hresolve : (rule.resolve? provider).RecordsFor (some rule.key) := by
    unfold Rule.resolve?
    split
    · exact (Accessor.recordsFor_read provider _ rule _).bind fun _ => recordsFor_pure _
    · exact (Accessor.recordsFor_read provider _ rule _).bind fun _ => recordsFor_pure _
    · exact (Accessor.recordsFor_read provider _ rule _).bind fun _ => recordsFor_pure _
    · exact (Accessor.recordsFor_read provider _ rule _).bind fun _ => recordsFor_pure _
    · exact (Accessor.recordsFor_read? provider _ rule).bind fun _ => recordsFor_pure _
    · exact (Accessor.recordsFor_read? provider _ rule).bind fun _ => recordsFor_pure _
    · exact recordsFor_pure _
  exact hresolve.bind fun _ => recordsFor_pure _

end Stylesheet
