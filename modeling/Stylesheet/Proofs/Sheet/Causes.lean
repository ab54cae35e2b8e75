import Stylesheet.Proofs.Rule.Causes
import Stylesheet.Proofs.Sheet.Loading
import Stylesheet.Proofs.Sheet.Source

/-!
# What is recorded while sheets are loaded, and for which entries

Loading reads the entries of all definitions, those which are inherited included, and records what
reading their values does.  So every diagnostic belongs to an entry, whose name it carries; and when
loading succeeds, nothing that belongs to an entry is left out, not even when another entry takes
its place.
-/

namespace Stylesheet

open Logged

/-- An entry is no merge key, and reading its value as that of a rule of its name records a
diagnostic. -/
def EntryRecords (provider : Provider) (entry : Node × Node) (d : Diagnostic) : Prop :=
  ∃ name, entry.1.text? = some name ∧ name ≠ mergeKey ∧
    d ∈ (Value.ofNode ⟨provider, some name⟩ entry.2).diagnostics

theorem Rule.diagnostics_ofNode (provider : Provider) (name : String) (node : Node) :
    (Rule.ofNode provider name node).diagnostics
      = (Value.ofNode ⟨provider, some name⟩ node).diagnostics :=
  diagnostics_bind_pure _ _

variable {provider : Provider} {style : String} {d : Diagnostic}

/-- What is recorded while entries are read is recorded for one of them. -/
theorem exists_entry_of_mem_addRules {pairs : List (Node × Node)} {rules : Table Rule}
    (hd : d ∈ (addRules provider pairs rules).diagnostics) :
    ∃ entry ∈ pairs, EntryRecords provider entry d := by
  induction pairs generalizing rules with
  | nil => cases hd
  | cons entry rest ih =>
      obtain ⟨key, node⟩ := entry
      rw [addRules] at hd
      have hrest {rules : Table Rule} (hd : d ∈ (addRules provider rest rules).diagnostics) :
          ∃ entry ∈ (key, node) :: rest, EntryRecords provider entry d := by
        obtain ⟨entry, hentry, hrecords⟩ := ih hd
        exact ⟨entry, List.mem_cons_of_mem _ hentry, hrecords⟩
      cases hname : key.text? with
      | none =>
          rw [hname] at hd
          cases hd
      | some name =>
          simp only [hname] at hd
          by_cases hmerge : name = mergeKey
          · rw [if_pos hmerge] at hd
            exact hrest hd
          · rw [if_neg hmerge, mem_diagnostics_bind_iff, diagnostics_mapError,
              Rule.diagnostics_ofNode] at hd
            rcases hd with hd | ⟨rule, -, hd⟩
            · exact ⟨(key, node), List.mem_cons_self, name, hname, hmerge, hd⟩
            · exact hrest hd

/-- When entries can be read, what is recorded for one of them is recorded. -/
theorem mem_diagnostics_addRules {pairs : List (Node × Node)} {rules result : Table Rule}
    (hresult : (addRules provider pairs rules).outcome = .ok result) {entry : Node × Node}
    (hentry : entry ∈ pairs) (hrecords : EntryRecords provider entry d) :
    d ∈ (addRules provider pairs rules).diagnostics := by
  induction pairs generalizing rules with
  | nil => cases hentry
  | cons first rest ih =>
      obtain ⟨key, node⟩ := first
      rw [addRules] at hresult ⊢
      cases hname : key.text? with
      | none =>
          rw [hname] at hresult
          cases hresult
      | some name =>
          simp only [hname] at hresult ⊢
          by_cases hmerge : name = mergeKey
          · rw [if_pos hmerge] at hresult ⊢
            rcases List.mem_cons.mp hentry with rfl | hentry
            · obtain ⟨_, hname', hrule, -⟩ := hrecords
              cases hname.symm.trans hname'
              exact absurd hmerge hrule
            · exact ih hresult hentry
          · rw [if_neg hmerge] at hresult ⊢
            obtain ⟨rule, hrule, hresult⟩ := outcome_bind_eq_ok_iff.mp hresult
            rw [mem_diagnostics_bind_iff, diagnostics_mapError, Rule.diagnostics_ofNode]
            rcases List.mem_cons.mp hentry with rfl | hentry
            · obtain ⟨_, hname', -, hd⟩ := hrecords
              cases hname.symm.trans hname'
              exact .inl hd
            · exact .inr ⟨rule, hrule, ih hresult hentry⟩

mutual

theorem exists_entry_of_mem_inheritedRules :
    ∀ {pairs : List (Node × Node)}, d ∈ (inheritedRules provider style pairs).diagnostics →
      ∃ node entries, (Node.mapping pairs).get? mergeKey = some node ∧
        node.Inherits (.mapping entries) ∧ ∃ entry ∈ entries, EntryRecords provider entry d
  | [], hd => by
      rw [inheritedRules] at hd
      cases hd
  | (key, node) :: rest, hd => by
      rw [inheritedRules] at hd
      rw [Node.get?_mapping_cons]
      by_cases hmerge : key.text? = some mergeKey
      · rw [if_pos hmerge] at hd ⊢
        obtain ⟨entries, hinherits, hrecords⟩ := exists_entry_of_mem_rulesOfBase hd
        exact ⟨node, entries, rfl, hinherits, hrecords⟩
      · rw [if_neg hmerge] at hd ⊢
        exact exists_entry_of_mem_inheritedRules hd

/-- What is recorded while a mapping of rules is read is recorded for an entry of the mapping, or of
one that it inherits from. -/
theorem exists_entry_of_mem_rulesOfBase :
    ∀ {node : Node}, d ∈ (rulesOfBase provider style node).diagnostics →
      ∃ entries, node.Inherits (.mapping entries) ∧
        ∃ entry ∈ entries, EntryRecords provider entry d
  | .mapping pairs, hd => by
      rw [rulesOfBase, mem_diagnostics_bind_iff] at hd
      rcases hd with hd | ⟨inherited, -, hd⟩
      · obtain ⟨node, entries, hmerge, hinherits, hrecords⟩ :=
          exists_entry_of_mem_inheritedRules hd
        exact ⟨entries, .merge hmerge hinherits, hrecords⟩
      · exact ⟨pairs, .self _, exists_entry_of_mem_addRules hd⟩
  | .scalar value, hd => nomatch hd
  | .sequence items, hd => nomatch hd

end

/-- When a mapping of rules can be read, what is recorded for an entry of it, or of one that it
inherits from, is recorded. -/
theorem mem_diagnostics_rulesOfBase {node base : Node} {entries : List (Node × Node)}
    {rules : Table Rule} (hrules : (rulesOfBase provider style node).outcome = .ok rules)
    (hinherits : node.Inherits base) (hbase : base = .mapping entries) {entry : Node × Node}
    (hentry : entry ∈ entries) (hrecords : EntryRecords provider entry d) :
    d ∈ (rulesOfBase provider style node).diagnostics := by
  -- on the way from the node to the base: at each step, all that comes further up is read first
  induction hinherits generalizing rules with
  | self node =>
      subst hbase
      rw [rulesOfBase] at hrules ⊢
      obtain ⟨inherited, hinherited, hrules⟩ := outcome_bind_eq_ok_iff.mp hrules
      rw [mem_diagnostics_bind_iff]
      exact .inr ⟨inherited, hinherited, mem_diagnostics_addRules hrules hentry hrecords⟩
  | @merge pairs node base hmerge hinherits ih =>
      rw [rulesOfBase] at hrules ⊢
      obtain ⟨inherited, hinherited, -⟩ := outcome_bind_eq_ok_iff.mp hrules
      rw [inheritedRules_eq, hmerge] at hinherited
      rw [mem_diagnostics_bind_iff, inheritedRules_eq, hmerge]
      exact .inl (ih hinherited hbase)

namespace Sheet

/-- What is recorded while styles are read is recorded for an entry of a style, or of a mapping that
it inherits from. -/
theorem exists_entry_of_mem_addStyles {pairs : List (Node × Node)} {styles : Table (Table Rule)}
    (hd : d ∈ (addStyles provider pairs styles).diagnostics) :
    ∃ style ∈ pairs, ∃ entries, style.2.Inherits (.mapping entries) ∧
      ∃ entry ∈ entries, EntryRecords provider entry d := by
  induction pairs generalizing styles with
  | nil => cases hd
  | cons style rest ih =>
      obtain ⟨key, node⟩ := style
      cases node with
      | scalar | sequence => cases hd
      | mapping pairs =>
          rw [addStyles] at hd
          cases hname : key.text? with
          | none =>
              rw [hname] at hd
              cases hd
          | some name =>
              simp only [hname] at hd
              rw [mem_diagnostics_bind_iff, ← rulesOfBase_mapping] at hd
              rcases hd with hd | ⟨rules, -, hd⟩
              · exact ⟨_, List.mem_cons_self, exists_entry_of_mem_rulesOfBase hd⟩
              · obtain ⟨style, hstyle, hrecords⟩ := ih hd
                exact ⟨style, List.mem_cons_of_mem _ hstyle, hrecords⟩

/-- When styles can be read, what is recorded for an entry of one of them is recorded. -/
theorem mem_diagnostics_addStyles {pairs : List (Node × Node)}
    {styles result : Table (Table Rule)}
    (hresult : (addStyles provider pairs styles).outcome = .ok result) {style : Node × Node}
    (hstyle : style ∈ pairs) {entries : List (Node × Node)}
    (hinherits : style.2.Inherits (.mapping entries)) {entry : Node × Node}
    (hentry : entry ∈ entries) (hrecords : EntryRecords provider entry d) :
    d ∈ (addStyles provider pairs styles).diagnostics := by
  induction pairs generalizing styles with
  | nil => cases hstyle
  | cons first rest ih =>
      obtain ⟨key, node⟩ := first
      cases node with
      | scalar | sequence => cases hresult
      | mapping pairs =>
          rw [addStyles] at hresult ⊢
          cases hname : key.text? with
          | none =>
              rw [hname] at hresult
              cases hresult
          | some name =>
              simp only [hname] at hresult ⊢
              obtain ⟨rules, hrules, hresult⟩ := outcome_bind_eq_ok_iff.mp hresult
              rw [← rulesOfBase_mapping] at hrules ⊢
              rw [mem_diagnostics_bind_iff]
              rcases List.mem_cons.mp hstyle with rfl | hstyle
              · exact .inl (mem_diagnostics_rulesOfBase hrules hinherits rfl hentry hrecords)
              · exact .inr ⟨rules, hrules, ih hresult hstyle⟩

variable {root : Node} {sheet : Sheet}

/-- What is recorded while a document is loaded is recorded while the value of an entry is read, as
that of a rule of its name. -/
theorem exists_entry_of_mem_diagnostics (hd : d ∈ (ofNode provider root).diagnostics) :
    ∃ name node, root.HasEntry name node ∧
      d ∈ (Value.ofNode ⟨provider, some name⟩ node).diagnostics := by
  cases root with
  | scalar | sequence => cases hd
  | mapping pairs =>
      rw [ofNode, diagnostics_bind_pure] at hd
      obtain ⟨style, hstyle, entries, hinherits, ⟨key, node⟩, hentry, name, hname, hmerge, hd⟩ :=
        exists_entry_of_mem_addStyles hd
      exact ⟨name, node, ⟨entries, ⟨pairs, rfl, style, hstyle, hinherits⟩, key, hentry, hname,
        hmerge⟩, hd⟩

/-- When a document can be loaded, what is recorded while the value of an entry is read is
recorded. -/
theorem mem_diagnostics_of_hasEntry (hsheet : (ofNode provider root).outcome = .ok sheet)
    {name : String} {node : Node} (hentry : root.HasEntry name node)
    (hd : d ∈ (Value.ofNode ⟨provider, some name⟩ node).diagnostics) :
    d ∈ (ofNode provider root).diagnostics := by
  obtain ⟨entries, ⟨styles, rfl, style, hstyle, hinherits⟩, key, hmem, hname, hmerge⟩ := hentry
  rw [ofNode] at hsheet ⊢
  obtain ⟨table, htable, -⟩ := outcome_bind_eq_ok_iff.mp hsheet
  rw [diagnostics_bind_pure]
  exact mem_diagnostics_addStyles htable hstyle hinherits hmem ⟨name, hname, hmerge, hd⟩

/-- When a document can be loaded, so can the value of every entry, as that of a rule of its
name. -/
theorem exists_value_of_hasEntry (hsheet : (ofNode provider root).outcome = .ok sheet)
    {name : String} {node : Node} (hentry : root.HasEntry name node) :
    ∃ value, (Value.ofNode ⟨provider, some name⟩ node).outcome = .ok value := by
  have hwell : root.WellFormed := by
    rw [← Node.violations_eq_nil_iff, ← List.head?_eq_none_iff, ← failure?_ofNode provider]
    exact failure?_of_ok hsheet
  rw [← failure?_eq_none_iff, Value.failure?_ofNode, List.head?_eq_none_iff,
    Node.valueViolations_eq_nil_iff]
  intro part hpart
  exact hwell.values part (hentry.holds hpart)

/-- When a document can be loaded, the diagnostics are those that nodes in the values of its entries
are the causes of. -/
theorem mem_diagnostics_ofNode_iff (hsheet : (ofNode provider root).outcome = .ok sheet) :
    d ∈ (ofNode provider root).diagnostics ↔
      ∃ name node inner, root.HasEntry name node ∧ node.Reaches inner ∧
        inner.Causes ⟨provider, some name⟩ d := by
  constructor
  · intro hd
    obtain ⟨name, node, hentry, hd⟩ := exists_entry_of_mem_diagnostics hd
    obtain ⟨inner, hreaches, hcauses⟩ := Value.exists_causes_of_mem_diagnostics hd
    exact ⟨name, node, inner, hentry, hreaches, hcauses⟩
  · rintro ⟨name, node, inner, hentry, hreaches, hcauses⟩
    obtain ⟨value, hvalue⟩ := exists_value_of_hasEntry hsheet hentry
    exact mem_diagnostics_of_hasEntry hsheet hentry
      ((Value.mem_diagnostics_ofNode_iff hvalue).mpr ⟨inner, hreaches, hcauses⟩)

/-- An expression of a sheet that does not compile has been recorded under the key of its rule. -/
theorem compileFailure_mem_diagnostics (hsheet : (ofNode provider root).outcome = .ok sheet)
    {style name : String} {rule : Rule} (hrule : sheet.rule? style name = some rule)
    {e : Expression} {error : CompileError} (hexpression : rule.value.HasExpression e)
    (herror : e.tree = .error error) :
    e.compileFailure error (some rule.key) ∈ (ofNode provider root).diagnostics := by
  obtain ⟨node, hsource, hread⟩ := (rule?_eq_some_iff hsheet).mp hrule
  obtain ⟨rfl, hvalue⟩ := Rule.ofNode_eq_ok_iff.mp hread
  obtain ⟨inner, body, hreaches, hwrites, rfl⟩ :=
    Value.exists_writes_of_hasExpression hvalue hexpression
  rw [mem_diagnostics_ofNode_iff hsheet]
  exact ⟨_, node, inner, hsource.hasEntry, hreaches, .compiling hwrites herror⟩

/-- No broken expression enters a sheet unnoticed.  One that does not compile, anywhere in the value
of a rule, has been recorded with its text under the key of the rule; and whatever is recorded as
such is an expression literal that is no expression, in an entry of that key.  So when nothing of
that kind is recorded, all expressions of the sheet have trees. -/
theorem broken_expressions_are_recorded (provider : Provider) (root : Node) :
    (∀ sheet, (ofNode provider root).outcome = .ok sheet →
      ∀ style name rule, sheet.rule? style name = some rule →
        ∀ e error, rule.value.HasExpression e → e.tree = .error error →
          e.compileFailure error (some rule.key) ∈ (ofNode provider root).diagnostics) ∧
    (∀ d ∈ (ofNode provider root).diagnostics, d.code = .compileFailed →
      ∃ name node inner body error, root.HasEntry name node ∧ node.Reaches inner ∧
        inner.Writes body ∧ Expr.ofText body = .error error ∧
        d = (Expression.compile body).compileFailure error (some name)) ∧
    ∀ sheet, (ofNode provider root).outcome = .ok sheet →
      (ofNode provider root).Avoids .compileFailed →
      ∀ style name rule, sheet.rule? style name = some rule →
        ∀ e, rule.value.HasExpression e → ∃ tree, e.tree = .ok tree := by
  refine ⟨?_, ?_, ?_⟩
  · intro sheet hsheet style name rule hrule e error hexpression herror
    exact compileFailure_mem_diagnostics hsheet hrule hexpression herror
  · intro d hd hcode
    obtain ⟨name, node, hentry, hd⟩ := exists_entry_of_mem_diagnostics hd
    obtain ⟨inner, hreaches, hcauses⟩ := Value.exists_causes_of_mem_diagnostics hd
    obtain ⟨body, error, hwrites, herror, hfailure⟩ := hcauses.exists_writes_of_code hcode
    exact ⟨name, node, inner, body, error, hentry, hreaches, hwrites, herror, hfailure⟩
  · intro sheet hsheet havoids style name rule hrule e hexpression
    cases htree : e.tree with
    | ok tree => exact ⟨tree, rfl⟩
    | error error =>
        exact absurd rfl
          (havoids _ (compileFailure_mem_diagnostics hsheet hrule hexpression htree))

/-- A width under a condition that is no expression. -/
def brokenEntries : List (Node × Node) :=
  [(.scalar (.text "$\x7bwide >\x7d"), .scalar (.number (.integer 1)))]

def brokenDocument : Node :=
  .mapping [(.scalar (.text "card"), .mapping [(.scalar (.text "width"), .mapping brokenEntries)])]

def brokenBranch : Branch Value :=
  ⟨"$\x7bwide >\x7d", Expression.compile "wide >", .plain (.number (.integer 1))⟩

def brokenRule : Rule :=
  ⟨"width", .conditional .number [brokenBranch]⟩

def brokenSheet : Sheet :=
  ⟨.ofList [("card", .ofList [("width", brokenRule)])]⟩

theorem ofNode_brokenDocument (provider : Provider) :
    (ofNode provider brokenDocument).outcome = .ok brokenSheet := by
  have hcondition : (Node.scalar (.text "$\x7bwide >\x7d")).condition?
      = some ("$\x7bwide >\x7d", "wide >") := Node.condition?_text (by decide)
  have hvalue : (Value.ofNode ⟨provider, some "width"⟩ (.mapping brokenEntries)).outcome
      = .ok (.conditional .number [brokenBranch]) :=
    Value.ofNode_mapping_eq_ok_iff.mpr ⟨_, Value.branchesOfPairs_cons_eq_ok_iff.mpr
      ⟨_, _, _, _, hcondition, Value.outcome_ofNode_number _, Value.outcome_branchesOfPairs_nil,
        rfl⟩, rfl⟩
  have hwidth : Binds provider (.scalar (.text "width"), .mapping brokenEntries)
      ("width", brokenRule) := ⟨rfl, Rule.ofNode_eq_ok_iff.mpr ⟨rfl, hvalue⟩⟩
  refine ofNode_eq_ok_iff.mpr ⟨_, rfl, _, .cons ⟨rfl, _, rfl, ?_⟩ .nil, rfl⟩
  exact rulesOfStyle_eq_ok_iff_chain.mpr ⟨_, .deepest rfl, _, .cons hwidth .nil, rfl⟩

/-- The broken condition is recorded, and it stands in an entry of the document. -/
theorem broken_expressions_are_recorded_width :
    (ofNode ({} : Environment).provider brokenDocument).outcome = .ok brokenSheet ∧
      brokenSheet.rule? "card" "width" = some brokenRule ∧
      ∃ error, (Expression.compile "wide >").tree = .error error ∧
        (Expression.compile "wide >").compileFailure error (some "width")
          ∈ (ofNode ({} : Environment).provider brokenDocument).diagnostics ∧
        ∃ name node inner body, brokenDocument.HasEntry name node ∧ node.Reaches inner ∧
          inner.Writes body ∧ ∃ error, Expr.ofText body = .error error := by
  obtain ⟨hsound, hcomplete, -⟩ :=
    broken_expressions_are_recorded ({} : Environment).provider brokenDocument
  have hsheet := ofNode_brokenDocument ({} : Environment).provider
  have hrule : brokenSheet.rule? "card" "width" = some brokenRule := rfl
  have hexpression : brokenRule.value.HasExpression (Expression.compile "wide >") :=
    .condition (.self _) (List.mem_singleton_self brokenBranch) rfl
  have hbroken : (Expression.compile "wide >").error?.isSome = true := by decide
  cases htree : (Expression.compile "wide >").tree with
  | ok tree =>
      rw [Expression.error?, htree] at hbroken
      cases hbroken
  | error error =>
      have hd := hsound brokenSheet hsheet "card" "width" brokenRule hrule _ error hexpression htree
      obtain ⟨name, node, inner, body, reason, hentry, hreaches, hwrites, hreason, -⟩ :=
        hcomplete _ hd rfl
      exact ⟨hsheet, hrule, error, rfl, hd, name, node, inner, body, hentry, hreaches, hwrites,
        reason, hreason⟩

end Sheet

end Stylesheet
