import Stylesheet.Environment.Snapshot
import Stylesheet.Proofs.Rule.FontSize
import Stylesheet.Proofs.Sheet.Source

/-!
# Sheets loaded for two providers

The provider that a sheet is loaded for settles the sizes of fonts that the document writes as
expressions, and nothing else: not whether loading fails, not the names and their order, and no
other part of any rule.
-/

namespace Stylesheet

open Logged

variable (provider provider' : Provider)

/-- Two runs fail alike and record the same; what they give is compared elsewhere. -/
abbrev Logged.RunAlike {ε α : Type} (x y : Logged Event ε α) : Prop :=
  Agree (fun _ _ => True) x y

theorem addRules_runAlike (pairs : List (Node × Node)) (rules rules' : Table Rule) :
    RunAlike (addRules provider pairs rules) (addRules provider' pairs rules') := by
  induction pairs generalizing rules rules' with
  | nil => exact Agree.pure trivial
  | cons entry rest ih =>
      obtain ⟨key, node⟩ := entry
      rw [addRules, addRules]
      cases key.text? with
      | none => exact Agree.fail _
      | some name =>
          by_cases hmerge : name = mergeKey
          · simp only [hmerge, if_true]
            exact ih rules rules'
          · simp only [hmerge, if_false]
            have hrule := Rule.ofNode_agree provider provider' name node
            apply Agree.bind (hrule.mapError SheetError.rule)
            intro rule rule' _
            exact ih _ _

mutual

theorem inheritedRules_runAlike (style : String) :
    ∀ pairs : List (Node × Node),
      RunAlike (inheritedRules provider style pairs) (inheritedRules provider' style pairs)
  | [] => by
      rw [inheritedRules, inheritedRules]
      exact Agree.pure trivial
  | (key, node) :: rest => by
      rw [inheritedRules, inheritedRules]
      by_cases hmerge : key.text? = some mergeKey
      · rw [if_pos hmerge, if_pos hmerge]
        exact rulesOfBase_runAlike style node
      · rw [if_neg hmerge, if_neg hmerge]
        exact inheritedRules_runAlike style rest

theorem rulesOfBase_runAlike (style : String) :
    ∀ node : Node,
      RunAlike (rulesOfBase provider style node) (rulesOfBase provider' style node)
  | .mapping pairs => by
      rw [rulesOfBase, rulesOfBase]
      apply Agree.bind (inheritedRules_runAlike style pairs)
      intro rules rules' _
      exact addRules_runAlike provider provider' pairs rules rules'
  | .scalar value => Agree.fail (SheetError.baseNotMapping style)
  | .sequence items => Agree.fail (SheetError.baseNotMapping style)

end

theorem rulesOfStyle_runAlike (style : String) (pairs : List (Node × Node)) :
    RunAlike (rulesOfStyle provider style pairs) (rulesOfStyle provider' style pairs) := by
  apply Agree.bind (inheritedRules_runAlike provider provider' style pairs)
  intro rules rules' _
  exact addRules_runAlike provider provider' pairs rules rules'

namespace Sheet

theorem addStyles_runAlike (pairs : List (Node × Node)) (styles styles' : Table (Table Rule)) :
    RunAlike (addStyles provider pairs styles) (addStyles provider' pairs styles') := by
  induction pairs generalizing styles styles' with
  | nil => exact Agree.pure trivial
  | cons style rest ih =>
      obtain ⟨key, node⟩ := style
      cases node with
      | scalar | sequence => exact Agree.fail _
      | mapping pairs =>
          rw [addStyles, addStyles]
          cases key.text? with
          | none => exact Agree.fail _
          | some name =>
              apply Agree.bind (rulesOfStyle_runAlike provider provider' name pairs)
              intro rules rules' _
              exact ih _ _

theorem ofNode_runAlike (root : Node) :
    RunAlike (ofNode provider root) (ofNode provider' root) := by
  cases root with
  | scalar | sequence => exact Agree.fail _
  | mapping pairs =>
      apply Agree.bind (addStyles_runAlike provider provider' pairs ∅ ∅)
      intro styles styles' _
      exact Agree.pure trivial

/-- Two sheets of one document that are equal but for the sizes of fonts that it writes as
expressions. -/
structure EqualButSizes (root : Node) (sheet sheet' : Sheet) : Prop where
  styles : sheet.styles.names = sheet'.styles.names
  rules : ∀ style, (sheet.rules style).names = (sheet'.rules style).names
  rule : ∀ style name,
    Option.Rel (fun rule rule' => ∃ node, root.RuleSource style name node ∧
      Rule.EqualButSizes node rule rule') (sheet.rule? style name) (sheet'.rule? style name)

variable {provider provider'} {root : Node} {sheet sheet' : Sheet}

theorem names_rules_eq (hsheet : (ofNode provider root).outcome = .ok sheet)
    (hsheet' : (ofNode provider' root).outcome = .ok sheet') (style : String) :
    (sheet.rules style).names = (sheet'.rules style).names := by
  obtain ⟨pairs, rfl, -⟩ := ofNode_eq_ok_iff.mp hsheet
  rcases names_rules hsheet style with
    ⟨entries, chain, hstyle, hchain, hnames⟩ | ⟨hnone, hnames⟩
  · rcases names_rules hsheet' style with
      ⟨entries', chain', hstyle', hchain', hnames'⟩ | ⟨hnone', -⟩
    · cases hstyle.unique hstyle'
      rw [hnames, hnames', hchain.unique hchain']
    · exact absurd hstyle (hnone' entries)
  · rcases names_rules hsheet' style with
      ⟨entries', chain', hstyle', -, -⟩ | ⟨-, hnames'⟩
    · exact absurd hstyle' (hnone entries')
    · rw [hnames, hnames']

/-- A rule of one sheet is there in the other, read from the same node. -/
theorem exists_rule_of_rule? (hsheet : (ofNode provider root).outcome = .ok sheet)
    (hsheet' : (ofNode provider' root).outcome = .ok sheet') {style name : String} {rule : Rule}
    (hrule : sheet.rule? style name = some rule) :
    ∃ rule', sheet'.rule? style name = some rule' ∧ ∃ node, root.RuleSource style name node ∧
      Rule.EqualButSizes node rule rule' := by
  obtain ⟨node, hsource, hread⟩ := (rule?_eq_some_iff hsheet).mp hrule
  have hagree := (Rule.ofNode_agree provider provider' name node).outcome
  rw [hread] at hagree
  generalize hread' : (Rule.ofNode provider' name node).outcome = outcome' at hagree
  cases hagree with
  | ok hequal =>
      exact ⟨_, (rule?_eq_some_iff hsheet').mpr ⟨node, hsource, hread'⟩, node, hsource, hequal⟩

theorem rel_rule? (hsheet : (ofNode provider root).outcome = .ok sheet)
    (hsheet' : (ofNode provider' root).outcome = .ok sheet') (style name : String) :
    Option.Rel (fun rule rule' => ∃ node, root.RuleSource style name node ∧
      Rule.EqualButSizes node rule rule') (sheet.rule? style name) (sheet'.rule? style name) := by
  cases hrule : sheet.rule? style name with
  | some rule =>
      obtain ⟨rule', hrule', hequal⟩ := exists_rule_of_rule? hsheet hsheet' hrule
      rw [hrule']
      exact .some hequal
  | none =>
      cases hrule' : sheet'.rule? style name with
      | none => exact .none
      | some rule' =>
          obtain ⟨rule, hfound, -⟩ := exists_rule_of_rule? hsheet' hsheet hrule'
          cases hrule.symm.trans hfound

/-- What the provider settles is the sizes of fonts that the document writes as expressions.
Loading fails for one provider when it fails for the other, with the same error; otherwise the two
sheets are equal but for such sizes.  The diagnostics are the same but for those of failed
evaluations. -/
theorem ofNode_changes_only_sizes (provider provider' : Provider) (root : Node) :
    (∀ e, (ofNode provider root).outcome = .error e ↔ (ofNode provider' root).outcome = .error e) ∧
      (∀ sheet sheet', (ofNode provider root).outcome = .ok sheet →
        (ofNode provider' root).outcome = .ok sheet' → EqualButSizes root sheet sheet') ∧
      (ofNode provider root).lasting = (ofNode provider' root).lasting := by
  have halike := ofNode_runAlike provider provider' root
  refine ⟨halike.outcome.eq_error_iff, ?_, halike.lasting⟩
  intro sheet sheet' hsheet hsheet'
  refine ⟨?_, names_rules_eq hsheet hsheet', rel_rule? hsheet hsheet'⟩
  obtain ⟨pairs, rfl, hnames⟩ := names_styles hsheet
  obtain ⟨_, hroot, hnames'⟩ := names_styles hsheet'
  cases hroot
  rw [hnames, hnames']

/-- A title in the system font, as large as the width. -/
def titleText : String := "!!font(system, $\x7bwidth\x7d)"

def titleDocument : Node :=
  .mapping [(.scalar (.text "card"),
    .mapping [(.scalar (.text "title"), .scalar (.text titleText))])]

def titleSheet (size : Float) : Sheet :=
  ⟨.ofList [("card", .ofList [("title", ⟨"title", .plain (.font (.system size))⟩)])]⟩

def widthEnvironment (width : Float) : Environment :=
  { named := .ofList [("width", .real width)] }

theorem outcome_parseText_titleText {width : Float} (hwidth : width.isNaN = false)
    (key : Option String) :
    (RuleContext.parseText ⟨(widthEnvironment width).provider, key⟩ titleText).outcome
      = .ok (.plain (.font (.system width))) := by
  have hbody : Literal.body? titleText = none := by decide +kernel
  have hfont : Literal.isCallOf Literal.fontMark titleText = true := by decide +kernel
  have harguments : Literal.callArguments Literal.fontMark titleText
      = ["system", "$\x7bwidth\x7d"] := by decide +kernel
  have hsize : Literal.body? "$\x7bwidth\x7d" = some "width" := by decide +kernel
  have hsystem : Text.sameLetters (Literal.unquote "system").toList Font.systemName.toList
      = true := by decide +kernel
  have htree : (Expression.compile "width").tree = .ok (.name "width") := rfl
  have hattempt : ((Expression.compile "width").attempt (widthEnvironment width).provider).outcome
      = .ok width := rfl
  have hkept : (Expression.compile "width").kept? (widthEnvironment width).provider = none := by
    simp only [Expression.kept?, htree, hattempt, hwidth, Bool.false_eq_true, if_false]
  have hsizeKept : RuleContext.sizeKept? ⟨(widthEnvironment width).provider, key⟩
      "${width}" = none := by
    rw [RuleContext.sizeKept?, hsize]
    exact hkept
  simp only [RuleContext.parseText, hbody, hfont, if_true, harguments, RuleContext.fontSize, hsize,
    Expression.compileReporting, htree, hsizeKept, RuleContext.fontOf, hsystem]
  rfl

theorem ofNode_titleDocument {width : Float} (hwidth : width.isNaN = false) :
    (ofNode (widthEnvironment width).provider titleDocument).outcome = .ok (titleSheet width) := by
  have hbinds : Binds (widthEnvironment width).provider
      (.scalar (.text "title"), .scalar (.text titleText))
      ("title", ⟨"title", .plain (.font (.system width))⟩) := by
    refine ⟨rfl, outcome_bind_eq_ok_iff.mpr ⟨_, ?_, rfl⟩⟩
    rw [Value.ofNode]
    exact outcome_parseText_titleText hwidth _
  refine ofNode_eq_ok_iff.mpr ⟨_, rfl, _, .cons ⟨rfl, _, rfl, ?_⟩ .nil, rfl⟩
  exact rulesOfStyle_eq_ok_iff_chain.mpr ⟨_, .deepest rfl, _, .cons hbinds .nil, rfl⟩

/-- A title as large as the width is loaded for two widths: the sheets differ in its size alone. -/
theorem ofNode_changes_only_sizes_title :
    EqualButSizes titleDocument (titleSheet 10) (titleSheet 20) ∧
      (titleSheet 10).same (titleSheet 20) = false := by
  obtain ⟨-, hequal, -⟩ := ofNode_changes_only_sizes (widthEnvironment 10).provider
    (widthEnvironment 20).provider titleDocument
  refine ⟨hequal _ _ (ofNode_titleDocument (by decide +kernel))
    (ofNode_titleDocument (by decide +kernel)), ?_⟩
  decide +kernel

end Sheet

end Stylesheet
