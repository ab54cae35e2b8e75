import Stylesheet.Proofs.Decimal.Integer
import Stylesheet.Proofs.Rule.Matching
import Stylesheet.Proofs.Rule.Numeric
import Stylesheet.Proofs.Rule.Parts

/-!
# Integers read as integers

An integer that is a double comes back unchanged, where it is all there is in a rule and where it is
selected in a rule whose kind counts as a number.
-/

namespace Stylesheet

open Decimal Logged

namespace Accessor

variable {provider : Provider} {rule : Rule} {n : Int}

/-- A rule with a selected integer is read by way of the double nearest to it. -/
theorem outcome_read_integer (hkind : rule.value.kind ∈ numericKinds)
    (hselects : rule.value.Selects provider (.plain (.number (.integer n)))) {x : Float}
    (hdouble : (Number.integer n).toFloat? = some x) (default : Int) :
    (integer.read provider rule default).outcome
      = .ok (((exactValue? x).map truncated).getD default) := by
  have hresolve : (rule.value.resolve provider (some rule.key) :
      Logged Event ReadError Resolution).outcome = .ok (.value (.number (.integer n))) := by
    rw [hselects.outcome_resolve, Value.resolve]
    rfl
  have hnumber : (Plain.number (.integer n)).toNumber? = .ok (some x) := by
    rw [Plain.toNumber?, hdouble]
  have hread := (outcome_read?_of_value hkind hresolve).1.trans (convert_integer hnumber)
  rw [read, outcome_bind_eq_ok_iff]
  exact ⟨_, hread, rfl⟩

/-- Integers are read unchanged if they are doubles, as all up to the 53rd power of two are: where
they are all there is in a rule, and where they are selected in a rule whose kind counts as a
number. -/
theorem read_integer_exact (n : Int) :
    (n.natAbs ≤ 2 ^ 53 → IsDouble n) ∧
      (IsDouble n →
        (∀ (loader : Provider) (key : String), ∃ rule,
          (Rule.ofNode loader key (.scalar (.number (.integer n)))).outcome = .ok rule ∧
          ∀ provider default, (integer.read provider rule default).outcome = .ok n) ∧
        ∀ (rule : Rule) (provider : Provider), rule.value.kind ∈ numericKinds →
          rule.value.Selects provider (.plain (.number (.integer n))) →
          ∀ default, (integer.read provider rule default).outcome = .ok n) := by
  refine ⟨isDouble_of_natAbs_le, fun hdouble => ?_⟩
  obtain ⟨x, hx, hvalue⟩ := hdouble.exists_ofInt?_eq
  have hexact (rule : Rule) (provider : Provider) (hkind : rule.value.kind ∈ numericKinds)
      (hselects : rule.value.Selects provider (.plain (.number (.integer n)))) (default : Int) :
      (integer.read provider rule default).outcome = .ok n := by
    rw [outcome_read_integer hkind hselects hx, hvalue, Option.map_some, truncated_intCast]
    rfl
  refine ⟨fun loader key => ⟨⟨key, .plain (.number (.integer n))⟩, ?_, ?_⟩, hexact⟩
  · exact Rule.ofNode_eq_ok_iff.mpr ⟨rfl, Value.outcome_ofNode_number _⟩
  · exact fun provider => hexact _ provider List.mem_cons_self (.leaf rfl)

def integerBranch (n : Int) : Branch Value :=
  ⟨fallbackText, Expression.compile Constants.fallback, .plain (.number (.integer n))⟩

/-- An integer beyond the 53rd power of two that is a double. -/
def evenWidth : Int := 9007199254740994

/-- It comes back unchanged, also as a fallback. -/
theorem read_integer_exact_evenWidth :
    (∃ rule, (Rule.ofNode ({} : Environment).provider "width"
        (.scalar (.number (.integer evenWidth)))).outcome = .ok rule ∧
      ∀ provider default, (integer.read provider rule default).outcome = .ok evenWidth) ∧
    ∀ default, (integer.read ({} : Environment).provider
      ⟨"width", .conditional .number [integerBranch evenWidth]⟩ default).outcome
        = .ok evenWidth := by
  have hdouble : IsDouble evenWidth :=
    isDouble_iff.mpr ⟨4503599627370497, 1, by norm_num, by norm_num, rfl⟩
  have hselects : (Value.conditional .number [integerBranch evenWidth]).Selects
      ({} : Environment).provider (.plain (.number (.integer evenWidth))) := by
    have htakes : Takes ({} : Environment).provider [] (integerBranch evenWidth) :=
      ⟨List.forall_mem_nil _, rfl⟩
    exact .branch htakes (.leaf rfl)
  obtain ⟨hwritten, hselected⟩ := (read_integer_exact evenWidth).2 hdouble
  exact ⟨hwritten _ "width", hselected ⟨"width", _⟩ _ List.mem_cons_self hselects⟩

/-- A text under a condition that never holds, and a number in any other case. -/
def textOrNumber : List (Node × Node) :=
  [(.scalar (.text "$\x7bfalse\x7d"), .scalar (.text "big")),
    (.fallbackKey, .scalar (.number (.integer 12)))]

def textBranch : Branch Value :=
  ⟨"$\x7bfalse\x7d", Expression.compile "false", .plain (.string "big")⟩

theorem ofNode_textOrNumber (context : RuleContext) :
    (Value.ofNode context (.mapping textOrNumber)).outcome
      = .ok (.conditional .string [textBranch, integerBranch 12]) := by
  have hcondition : (Node.scalar (.text "$\x7bfalse\x7d")).condition?
      = some ("$\x7bfalse\x7d", "false") := Node.condition?_text (by decide)
  have htext : (Value.ofNode context (.scalar (.text "big"))).outcome
      = .ok (.plain (.string "big")) := by
    rw [Value.ofNode]
    rfl
  have hnumber : (Value.branchesOfPairs context [(.fallbackKey,
      .scalar (.number (.integer 12)))]).outcome = .ok [integerBranch 12] :=
    Value.branchesOfPairs_cons_eq_ok_iff.mpr ⟨_, _, _, [], Node.condition?_fallbackKey,
      Value.outcome_ofNode_number _, Value.outcome_branchesOfPairs_nil, rfl⟩
  exact Value.ofNode_mapping_eq_ok_iff.mpr ⟨[textBranch, integerBranch 12],
    Value.branchesOfPairs_cons_eq_ok_iff.mpr ⟨_, _, _, _, hcondition, htext, hnumber, rfl⟩, rfl⟩

/-- An integer that is selected in a rule of texts is not read. -/
theorem not_read_integer_exact :
    ∃ rule, (Rule.ofNode ({} : Environment).provider "padding"
        (.mapping textOrNumber)).outcome = .ok rule ∧
      rule.value.Selects ({} : Environment).provider (.plain (.number (.integer 12))) ∧
      (integer.read ({} : Environment).provider rule 0).outcome = .ok 0 := by
  refine ⟨⟨"padding", .conditional .string [textBranch, integerBranch 12]⟩, ?_, ?_, rfl⟩
  · exact Rule.ofNode_eq_ok_iff.mpr ⟨rfl, ofNode_textOrNumber _⟩
  · have htakes : Takes ({} : Environment).provider [textBranch] (integerBranch 12) := by
      refine ⟨fun other hother => ?_, rfl⟩
      rw [List.mem_singleton.mp hother]
      rfl
    exact .branch htakes (.leaf rfl)

end Accessor

end Stylesheet
