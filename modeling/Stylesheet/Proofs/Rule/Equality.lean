import Stylesheet.Proofs.Decimal
import Stylesheet.Proofs.Expression.Equality
import Stylesheet.Proofs.Expression.Origin
import Stylesheet.Proofs.Rule.FontSize
import Stylesheet.Proofs.Sheet.WellFormed

/-!
# Values that equal themselves

Equality of values compares doubles as doubles, so a value is not equal to itself when a NaN was
computed for it: as a number of the document, or as the size of a font.  A NaN that the provider
gave as a lasting answer was not computed, and is equal to itself.
-/

namespace Stylesheet

open Logged

/-- An expression has a NaN as its value, and does not just return a lasting answer. -/
def Expression.ComputesNaN (provider : Provider) (e : Expression) : Prop :=
  ∃ x, (e.attempt provider).outcome = .ok x ∧ x.isNaN = true ∧
    ∀ query, ¬ e.Returns provider query x

theorem Expression.computesNaN_iff_of_ok {provider : Provider} {e : Expression} {x : Float}
    (hattempt : (e.attempt provider).outcome = .ok x) :
    e.ComputesNaN provider ↔ x.isNaN = true ∧ e.kept? provider = none := by
  have hkept (hnan : x.isNaN = true) :
      e.kept? provider = none ↔ ∀ query, ¬ e.Returns provider query x := by
    simp only [Option.eq_none_iff_forall_ne_some, ne_eq, kept?_eq_some_iff hattempt hnan]
  constructor
  · rintro ⟨y, hy, hnan, hcomputed⟩
    cases hattempt.symm.trans hy
    exact ⟨hnan, (hkept hnan).mpr hcomputed⟩
  · rintro ⟨hnan, hnone⟩
    exact ⟨x, hattempt, hnan, (hkept hnan).mp hnone⟩

theorem Expression.not_computesNaN_of_error {provider : Provider} {e : Expression}
    {reason : EvaluationFailure} (hattempt : (e.attempt provider).outcome = .error reason) :
    ¬ e.ComputesNaN provider := by
  rintro ⟨x, hx, -⟩
  cases hattempt.symm.trans hx

namespace Node

/-- A node for which a NaN is computed: a number that is one, or a font whose size expression
computes one. -/
inductive ComputesNaN (provider : Provider) : Node → Prop where
  | number {n : Number} (hn : n.isComputedNaN = true) : ComputesNaN provider (.scalar (.number n))
  | font {text body : String} (hsize : Literal.SizedBy text body)
      (hbody : (Expression.compile body).ComputesNaN provider) :
      ComputesNaN provider (.scalar (.text text))

variable {provider : Provider}

theorem computesNaN_number_iff {n : Number} :
    (Node.scalar (.number n)).ComputesNaN provider ↔ n.isComputedNaN = true := by
  constructor
  · rintro ⟨hn⟩
    exact hn
  · exact .number

theorem computesNaN_text_iff {text : String} :
    (Node.scalar (.text text)).ComputesNaN provider ↔
      ∃ body, Literal.SizedBy text body ∧ (Expression.compile body).ComputesNaN provider := by
  constructor
  · intro hnan
    cases hnan with
    | font hsize hbody => exact ⟨_, hsize, hbody⟩
  · rintro ⟨body, hsize, hbody⟩
    exact .font hsize hbody

/-- No NaN is computed for texts that are read as expressions or that are no calls of a font. -/
theorem not_computesNaN_text {text : String}
    (hfont : Literal.body? text = none → Literal.isCallOf Literal.fontMark text = false) :
    ¬ (Node.scalar (.text text)).ComputesNaN provider := by
  rw [computesNaN_text_iff]
  rintro ⟨body, ⟨hbody, hcall, -⟩, -⟩
  cases (hfont hbody).symm.trans hcall

end Node

theorem Font.same_self_eq (font : Font) :
    font.same font = (!font.size.isNaN || font.kept.isSome) := by
  rw [same, Decimal.beq_self_eq]
  cases font.size.isNaN <;> simp

namespace RuleContext

variable {context : RuleContext}

/-- The size of a font is a computed NaN when it is an expression that computes one.  No numeral is
a NaN, and what is no number counts as zero. -/
theorem computesNaN_fontSize_iff {ε : Type} {text : String} {size : Float}
    (hsize : (context.fontSize text : Logged Event ε Float).outcome = .ok size) :
    size.isNaN = true ∧ context.sizeKept? text = none ↔
      ∃ body, Literal.body? text = some body ∧
        (Expression.compile body).ComputesNaN context.provider := by
  have hzero : (0 : Float).isNaN = false := by decide +kernel
  unfold fontSize at hsize
  unfold sizeKept?
  cases hbody : Literal.body? text with
  | some body =>
      simp only [hbody] at hsize
      obtain ⟨e, hcompile, hevaluate⟩ := outcome_bind_eq_ok_iff.mp hsize
      rw [Expression.outcome_compileReporting] at hcompile
      cases hcompile
      simp only [Option.some.injEq, exists_eq_left', Option.bind_eq_bind, Option.bind_some]
      cases hattempt : ((Expression.compile body).attempt context.provider).outcome with
      | ok x =>
          rw [Expression.outcome_evaluate_of_ok hattempt] at hevaluate
          cases hevaluate
          exact (Expression.computesNaN_iff_of_ok hattempt).symm
      | error reason =>
          rw [Expression.outcome_evaluate_of_error hattempt] at hevaluate
          cases hevaluate
          refine iff_of_false ?_ (Expression.not_computesNaN_of_error hattempt)
          rw [hzero]
          exact nofun
  | none =>
      simp only [hbody] at hsize
      have hnumber : size.isNaN = false := by
        cases hnumeral : Decimal.takeNumeral? text.toList with
        | some found =>
            simp only [hnumeral] at hsize
            cases hsize
            exact Decimal.Numeral.isNaN_toFloat _
        | none =>
            simp only [hnumeral] at hsize
            cases hsize
            exact hzero
      rw [hnumber]
      exact iff_of_false nofun nofun

theorem same_self_parseText_iff {text : String} {value : Value}
    (hvalue : (context.parseText text).outcome = .ok value) :
    value.same value = true ↔ ¬ (Node.scalar (.text text)).ComputesNaN context.provider := by
  revert hvalue
  apply parseText_cases (motive := fun reading => reading.outcome = .ok value →
    (value.same value = true ↔ ¬ (Node.scalar (.text text)).ComputesNaN context.provider)) context text
  case expression =>
    intro body hbody hvalue
    obtain ⟨e, hcompile, hvalue⟩ := outcome_bind_eq_ok_iff.mp hvalue
    cases hvalue
    rw [Expression.outcome_compileReporting] at hcompile
    cases hcompile
    refine iff_of_true ?_ (Node.not_computesNaN_text fun hnone => ?_)
    · rw [Value.same]
      exact Expression.same_self_compile body
    · cases hbody.symm.trans hnone
  case font =>
    intro hbody hfont family size harguments hvalue
    obtain ⟨points, hpoints, hvalue⟩ := outcome_bind_eq_ok_iff.mp hvalue
    cases hvalue
    obtain ⟨name, hname⟩ := fontOf_cases (Literal.unquote family)
    have hsized (body : String) : Literal.SizedBy text body ↔ Literal.body? size = some body := by
      constructor
      · rintro ⟨-, -, _, _, harguments', hbody'⟩
        cases harguments.symm.trans harguments'
        exact hbody'
      · intro hbody'
        exact ⟨hbody, hfont, family, size, harguments, hbody'⟩
    simp only [Node.computesNaN_text_iff, hsized]
    rw [← computesNaN_fontSize_iff hpoints, hname, Value.same, Plain.same, Font.same_self_eq]
    dsimp only
    cases points.isNaN <;> cases context.sizeKept? size <;> simp
  case fontCount =>
    intro _ _ _ hvalue
    cases hvalue
  case color =>
    intro _ hfont _ argument _ color _ hvalue
    cases hvalue
    exact iff_of_true (by simp [Value.same, Plain.same]) (Node.not_computesNaN_text fun _ => hfont)
  case badColor =>
    intro _ hfont _ argument _ _ d _ hvalue
    cases hvalue
    exact iff_of_true (by simp [Value.same, Plain.same]) (Node.not_computesNaN_text fun _ => hfont)
  case colorCount =>
    intro _ _ _ _ hvalue
    cases hvalue
  case string =>
    intro _ hfont _ hvalue
    cases hvalue
    exact iff_of_true (by simp [Value.same, Plain.same]) (Node.not_computesNaN_text fun _ => hfont)

theorem same_self_parseScalar_iff {scalar : Scalar} {value : Value}
    (hvalue : (context.parseScalar scalar).outcome = .ok value) :
    value.same value = true ↔ ¬ (Node.scalar scalar).ComputesNaN context.provider := by
  cases scalar with
  | text s => exact same_self_parseText_iff hvalue
  | number n =>
      cases hvalue
      rw [Value.same, Plain.same, Number.same_self_eq, Node.computesNaN_number_iff]
      simp
  | null | boolean =>
      cases hvalue
      exact iff_of_true (by simp [Value.same, Plain.same]) nofun

end RuleContext

namespace Value

variable {context : RuleContext}

theorem same_self_branches_iff {branches : List (Branch Value)} :
    sameBranches branches branches = true ↔ ∀ branch ∈ branches,
      branch.condition.same branch.condition = true ∧ branch.value.same branch.value = true := by
  induction branches with
  | nil => simp [sameBranches]
  | cons branch rest ih => simp [sameBranches, ih]

mutual

/-- The value that a node is read as equals itself when no NaN is computed for a part of it. -/
theorem same_self_ofNode_iff : ∀ (node : Node) {value : Value},
    (ofNode context node).outcome = .ok value →
      (value.same value = true ↔
        ∀ part, node.Reaches part → ¬ part.ComputesNaN context.provider)
  | .scalar scalar, value, hvalue => by
      rw [ofNode] at hvalue
      simp only [Node.reaches_scalar_iff, forall_eq]
      exact RuleContext.same_self_parseScalar_iff hvalue
  | .sequence items, value, hvalue => by
      rw [ofNode] at hvalue
      cases hvalue
      simp only [Node.reaches_sequence_iff, forall_eq]
      exact iff_of_true (by simp [same]) nofun
  | .mapping pairs, value, hvalue => by
      obtain ⟨branches, hbranches, rfl⟩ := ofNode_mapping_eq_ok_iff.mp hvalue
      rw [same, beq_self_eq_true, Bool.true_and, same_self_branches_iff]
      -- stored branches are the written ones, in another order
      simp only [mem_storageOrder_iff]
      rw [same_self_branchesOfPairs_iff pairs hbranches]
      constructor
      · intro hpairs part hpart
        rcases Node.reaches_mapping_iff.mp hpart with rfl | ⟨pair, hpair, hpart⟩
        · exact nofun
        · exact hpairs pair hpair part hpart
      · intro hnode pair hpair part hpart
        exact hnode part (.branch hpair hpart)

theorem same_self_branchesOfPairs_iff : ∀ (pairs : List (Node × Node))
    {branches : List (Branch Value)}, (branchesOfPairs context pairs).outcome = .ok branches →
      ((∀ branch ∈ branches, branch.condition.same branch.condition = true ∧
          branch.value.same branch.value = true) ↔
        ∀ pair ∈ pairs, ∀ part, pair.2.Reaches part → ¬ part.ComputesNaN context.provider)
  | [], branches, hbranches => by
      rw [branchesOfPairs] at hbranches
      cases hbranches
      simp
  | (condition, node) :: rest, branches, hbranches => by
      obtain ⟨source, body, value, others, -, hvalue, hothers, rfl⟩ :=
        branchesOfPairs_cons_eq_ok_iff.mp hbranches
      simp only [List.forall_mem_cons]
      rw [same_self_ofNode_iff node hvalue, same_self_branchesOfPairs_iff rest hothers]
      simp only [Expression.same_self_compile, true_and]

end

end Value

/-- A rule equals itself when no NaN is computed for a part of its node. -/
theorem Rule.same_self_iff {provider : Provider} {key : String} {node : Node} {rule : Rule}
    (hrule : (Rule.ofNode provider key node).outcome = .ok rule) :
    rule.same rule = true ↔ ∀ part, node.Reaches part → ¬ part.ComputesNaN provider := by
  obtain ⟨value, hvalue, hrule⟩ := outcome_bind_eq_ok_iff.mp hrule
  cases hrule
  rw [same, beq_self_eq_true, Bool.true_and]
  exact Value.same_self_ofNode_iff node hvalue

end Stylesheet
