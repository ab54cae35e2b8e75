import Stylesheet.Environment.Snapshot
import Stylesheet.Proofs.Rule.Reading
import Stylesheet.Proofs.Sheet.Violations

/-!
# Failures of loading

A sheet fails to load with the first thing that is wrong with its document.  Nothing else counts:
not the environment, not the colours, sizes and expressions that are replaced or do not compile.
-/

namespace Stylesheet

open Logged

/-- No text is a call of both marks. -/
theorem Literal.isCallOf_colorMark_of_fontMark {text : String}
    (hfont : isCallOf fontMark text = true) : isCallOf colorMark text = false := by
  obtain ⟨rest, hrest⟩ := List.isPrefixOf_iff_prefix.mp hfont
  unfold isCallOf
  rw [← hrest]
  rfl

namespace RuleContext

variable {context : RuleContext}

/-- Compiling does not fail, so a failure after it is a failure of what follows. -/
theorem failure?_compileReporting {ε α : Type} (source : String) (rule : Option String)
    {f : Expression → Logged Event ε α} :
    (Expression.compileReporting source rule >>= f).failure?
      = (f (Expression.compile source)).failure? := by
  rw [bind_of_ok (Expression.outcome_compileReporting source rule) f]
  rfl

/-- A text fails to be read by the number of its arguments alone. -/
theorem failure?_parseText (text : String) :
    (context.parseText text).failure? = (Scalar.text text).violations.head? := by
  unfold Scalar.violations Literal.countViolations
  apply parseText_cases (motive := fun reading => reading.failure? = _) context text
  case expression =>
    intro body hbody
    simp only [hbody, Option.isSome_some, if_true]
    exact failure?_compileReporting body context.key
  case font =>
    intro hbody hfont family size harguments
    have hcolor := Literal.isCallOf_colorMark_of_fontMark hfont
    obtain ⟨points, hpoints⟩ := outcome_fontSize (ε := RuleError) context size
    rw [failure?_bind fun points => failure?_pure _, failure?_of_ok hpoints]
    simp [hbody, hfont, hcolor, harguments]
  case fontCount =>
    intro hbody hfont hlength
    simp [hbody, hfont, hlength, wrongCount]
  case color =>
    intro hbody hfont hcolor argument harguments color hof
    simp [hbody, hfont, hcolor, harguments]
  case badColor =>
    intro hbody hfont hcolor argument harguments hof d hcode
    rw [failure?_bind fun _ => failure?_pure _, failure?_of_ok (outcome_report d)]
    simp [hbody, hfont, hcolor, harguments]
  case colorCount =>
    intro hbody hfont hcolor hlength
    simp [hbody, hfont, hcolor, hlength, wrongCount]
  case string =>
    intro hbody hfont hcolor
    simp [hbody, hfont, hcolor]

theorem failure?_parseScalar (value : Scalar) :
    (context.parseScalar value).failure? = value.violations.head? := by
  cases value with
  | text s => exact failure?_parseText s
  | null | boolean b | number n => rfl

end RuleContext

/-- Branches of any kinds make a conditional value. -/
theorem Value.failure?_ofBranches {ε : Type} (key : Option String)
    (branches : List (Branch Value)) :
    (Value.ofBranches key branches : Logged Event ε Value).failure? = none := by
  exact failure?_of_ok (Value.outcome_ofBranches key branches)

mutual

/-- A node fails to be read as a rule's value with the first thing that is wrong with it. -/
theorem Value.failure?_ofNode (context : RuleContext) :
    ∀ node : Node, (Value.ofNode context node).failure? = node.valueViolations.head?
  | .scalar value => by
      rw [Value.ofNode, Node.valueViolations]
      exact RuleContext.failure?_parseScalar value
  | .sequence _ => by
      rw [Value.ofNode, Node.valueViolations]
      rfl
  | .mapping pairs => by
      have hbranches := Value.failure?_branchesOfPairs context pairs
      rw [Value.ofNode, Node.valueViolations, ← hbranches]
      rw [failure?_bind fun branches => Value.failure?_ofBranches context.key branches,
        Option.or_none]

theorem Value.failure?_branchesOfPairs (context : RuleContext) :
    ∀ pairs : List (Node × Node),
      (Value.branchesOfPairs context pairs).failure? = (Node.branchViolations pairs).head?
  | [] => by
      rw [Value.branchesOfPairs, Node.branchViolations]
      rfl
  | (key, node) :: rest => by
      have hnode := Value.failure?_ofNode context node
      have hrest := Value.failure?_branchesOfPairs context rest
      rw [Value.branchesOfPairs, Node.branchViolations, Node.conditionViolations]
      cases hcondition : key.condition? with
      | none => rfl
      | some condition =>
          obtain ⟨source, body⟩ := condition
          simp only [Option.isSome_some, if_true, List.nil_append, List.head?_append, ← hnode,
            ← hrest]
          refine failure?_bind fun value => ?_
          rw [RuleContext.failure?_compileReporting, failure?_bind fun others => failure?_pure _,
            Option.or_none]

end

theorem Rule.failure?_ofNode (provider : Provider) (key : String) (node : Node) :
    (Rule.ofNode provider key node).failure? = node.valueViolations.head? := by
  rw [Rule.ofNode, ← Value.failure?_ofNode ⟨provider, some key⟩ node,
    failure?_bind fun value => failure?_pure _, Option.or_none]

/-- Rules are added with the first thing that is wrong with an entry as the failure, whatever rules
there are already. -/
theorem failure?_addRules (provider : Provider) (pairs : List (Node × Node))
    (rules : Table Rule) :
    (addRules provider pairs rules).failure? = (pairs.flatMap Node.entryViolations).head? := by
  induction pairs generalizing rules with
  | nil => rfl
  | cons entry rest ih =>
      obtain ⟨key, node⟩ := entry
      rw [List.flatMap_cons, List.head?_append, addRules, Node.entryViolations]
      cases hname : key.text? with
      | none => rfl
      | some name =>
          by_cases hmerge : name = mergeKey
          · simpa [hmerge] using ih rules
          · simp only [hmerge, if_false]
            rw [failure?_bind fun rule => ih (rules.insert name rule), failure?_mapError,
              Rule.failure?_ofNode, List.head?_map]

mutual

/-- The rules of a style are inherited with the first thing that is wrong with what is inherited
as the failure. -/
theorem failure?_inheritedRules (provider : Provider) (style : String) :
    ∀ pairs : List (Node × Node), (inheritedRules provider style pairs).failure?
      = (Node.inheritedViolations style pairs).head?
  | [] => by
      rw [inheritedRules, Node.inheritedViolations]
      rfl
  | (key, node) :: rest => by
      have hnode := failure?_rulesOfBase provider style node
      have hrest := failure?_inheritedRules provider style rest
      rw [inheritedRules, Node.inheritedViolations]
      split
      · exact hnode
      · exact hrest

theorem failure?_rulesOfBase (provider : Provider) (style : String) :
    ∀ node : Node, (rulesOfBase provider style node).failure?
      = (Node.definitionViolations style node).head?
  | .mapping pairs => by
      have hinherited := failure?_inheritedRules provider style pairs
      rw [rulesOfBase, Node.definitionViolations, List.head?_append,
        failure?_bind fun rules => failure?_addRules provider pairs rules, hinherited]
  | .scalar _ => by
      rw [rulesOfBase, Node.definitionViolations]
      · rfl
      all_goals nofun
  | .sequence _ => by
      rw [rulesOfBase, Node.definitionViolations]
      · rfl
      all_goals nofun

end

/-- An integer of more digits than are ever written is not shown. -/
theorem Scalar.isShowable_integer_eq_false {n : Nat}
    (hn : Nat.pow 10 Decimal.longestInteger ≤ n) :
    (Scalar.number (.integer n)).isShowable = false := by
  have hnot : ¬ (n : Int).natAbs < Nat.pow 10 Decimal.longestInteger :=
    Nat.not_lt.mpr (Int.natAbs_natCast n ▸ hn)
  simp only [isShowable, decide_eq_false_iff_not]
  exact hnot

namespace Sheet

/-- Styles are added with the first thing that is wrong with one of them as the failure. -/
theorem failure?_addStyles (provider : Provider) (pairs : List (Node × Node))
    (styles : Table (Table Rule)) :
    (addStyles provider pairs styles).failure? = (pairs.flatMap Node.styleViolations).head? := by
  induction pairs generalizing styles with
  | nil => rfl
  | cons style rest ih =>
      obtain ⟨key, node⟩ := style
      rw [List.flatMap_cons, List.head?_append]
      cases node with
      | mapping pairs =>
          rw [addStyles, Node.styleViolations]
          cases hname : key.text? with
          | none => rfl
          | some name =>
              have hbase := failure?_rulesOfBase provider name (.mapping pairs)
              rw [rulesOfBase] at hbase
              dsimp only
              rw [failure?_bind fun rules => ih (styles.insert name rules), rulesOfStyle, hbase]
      | scalar value => rfl
      | sequence items => rfl

/-- Loading fails with the first thing that is wrong with the document, and succeeds when nothing
is. -/
theorem failure?_ofNode (provider : Provider) (root : Node) :
    (ofNode provider root).failure? = root.violations.head? := by
  cases root with
  | mapping styles =>
      rw [ofNode, Node.violations, ← failure?_addStyles provider styles ∅]
      rw [failure?_bind fun styles => failure?_pure _, Option.or_none]
  | scalar value => rfl
  | sequence items => rfl

/-- Loading fails with the first thing that is wrong with a document, and the failure has a message
of its own exactly for the documents that are not well formed, save those where the first thing
that is wrong is that a key of a conditional value cannot be written. -/
theorem fails_iff_not_wellFormed_iff (provider : Provider) (root : Node) :
    (∀ e, (ofNode provider root).outcome = .error e ↔ root.violations.head? = some e) ∧
      (((∃ e, (ofNode provider root).outcome = .error e ∧ e ≠ .rule .unshowableCondition) ↔
          ¬ root.WellFormed) ↔
        root.violations.head? ≠ some (.rule .unshowableCondition)) ∧
      (root.violations.head? = some (.rule .unshowableCondition) →
        ∃ pairs, root.Holds (.mapping pairs) ∧ ∃ pair ∈ pairs, pair.1.isShowable = false) := by
  have hfails (e : SheetError) :
      (ofNode provider root).outcome = .error e ↔ root.violations.head? = some e := by
    rw [← failure?_eq_some_iff, failure?_ofNode]
  refine ⟨hfails, ?_, ?_⟩
  · simp only [hfails, ← Node.violations_eq_nil_iff]
    cases root.violations with
    | nil => simp
    | cons e rest => simp
  · intro hfirst
    obtain ⟨value, hholds, hown⟩ :=
      Node.exists_holds_of_rule_mem_violations (List.mem_of_head? hfirst)
    obtain ⟨pairs, rfl, hkey⟩ := Node.exists_unshowable_of_mem_ownViolations hown
    exact ⟨pairs, hholds, hkey⟩

/-- The document of one style with one rule, whose value has a number for a condition. -/
def numberCondition (n : Number) : Node :=
  .mapping [(.scalar (.text "style"), .mapping [(.scalar (.text "rule"),
    .mapping [(.scalar (.number n), .scalar .null)])])]

theorem violations_numberCondition (n : Number) :
    (numberCondition n).violations = [.rule (Node.scalar (.number n)).conditionError] := by
  rfl

/-- A document whose one condition is an integer of more digits than are ever written. -/
def hugeCondition : Node :=
  numberCondition (.integer (Nat.pow 10 Decimal.longestInteger))

theorem violations_hugeCondition :
    hugeCondition.violations = [.rule .unshowableCondition] := by
  have hhuge := Scalar.isShowable_integer_eq_false (Nat.le_refl (Nat.pow 10 Decimal.longestInteger))
  rw [hugeCondition, violations_numberCondition, Node.conditionError, Node.isShowable,
    Node.isWritable, hhuge, Bool.false_and, if_neg Bool.false_ne_true]

/-- A document that is not well formed, and loading fails without a message of its own. -/
theorem not_fails_iff_not_wellFormed_hugeCondition :
    ¬ ((∃ e, (ofNode ({} : Environment).provider hugeCondition).outcome = .error e ∧
        e ≠ .rule .unshowableCondition) ↔ ¬ hugeCondition.WellFormed) := by
  have hfails (e : SheetError) : (ofNode ({} : Environment).provider hugeCondition).outcome
      = .error e ↔ some (.rule .unshowableCondition) = some e := by
    rw [← failure?_eq_some_iff, failure?_ofNode, violations_hugeCondition]
    rfl
  have hill : ¬ hugeCondition.WellFormed := by
    rw [← Node.violations_eq_nil_iff, violations_hugeCondition]
    exact List.cons_ne_nil _ _
  intro hiff
  obtain ⟨e, he, hne⟩ := hiff.mpr hill
  exact hne (Option.some.inj ((hfails e).mp he)).symm

end Sheet

end Stylesheet
