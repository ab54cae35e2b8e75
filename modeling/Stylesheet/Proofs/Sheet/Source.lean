import Stylesheet.Proofs.Sheet.Inheritance

/-!
# Sources of rules

Every rule of a sheet has one source: the value of the last entry of its name in the flattened
chain of the last style of its name.  Which nodes are sources, and in which order the styles and
their rules stand, is a matter of the document alone.
-/

namespace Stylesheet

open Logged

namespace Node

/-- The last of some pairs under a name has a given value. -/
def LastUnder (name : String) (pairs : List (Node × Node)) (node : Node) : Prop :=
  ∃ before key after, pairs = before ++ (key, node) :: after ∧ key.text? = some name ∧
    ∀ pair ∈ after, pair.1.text? ≠ some name

theorem LastUnder.unique {name : String} {pairs : List (Node × Node)} {node node' : Node}
    (hlast : LastUnder name pairs node) (hlast' : LastUnder name pairs node') : node' = node := by
  obtain ⟨before, key, after, rfl, hname, hafter⟩ := hlast
  obtain ⟨before', key', after', hsplit, hname', hafter'⟩ := hlast'
  rcases List.append_eq_append_iff.mp hsplit with ⟨middle, -, hmiddle⟩ | ⟨middle, -, hmiddle⟩
  · cases middle with
    | nil =>
        cases hmiddle
        rfl
    | cons pair middle =>
        obtain ⟨-, hafter⟩ := List.cons.inj hmiddle
        subst hafter
        exact absurd hname' (hafter (key', node') (by simp))
  · cases middle with
    | nil =>
        cases hmiddle
        rfl
    | cons pair middle =>
        obtain ⟨-, hafter⟩ := List.cons.inj hmiddle
        subst hafter
        exact absurd hname (hafter' (key, node) (by simp))

/-- The node that a document has for a rule of a style. -/
def RuleSource (root : Node) (style name : String) (node : Node) : Prop :=
  ∃ styles entries chain, root = .mapping styles ∧ LastUnder style styles (.mapping entries) ∧
    Chain entries chain ∧ LastUnder name (flatEntries chain) node

theorem RuleSource.unique {root node node' : Node} {style name : String}
    (hsource : root.RuleSource style name node) (hsource' : root.RuleSource style name node') :
    node' = node := by
  obtain ⟨styles, entries, chain, rfl, hstyle, hchain, hnode⟩ := hsource
  obtain ⟨_, entries', chain', hroot, hstyle', hchain', hnode'⟩ := hsource'
  cases hroot
  cases hstyle.unique hstyle'
  cases hchain.unique hchain'
  exact hnode.unique hnode'

/-- A definition of a document, or one that it inherits from, has an entry of a name, which is no
merge key, with a node as its value. -/
def HasEntry (root : Node) (name : String) (node : Node) : Prop :=
  ∃ entries, root.Defines (.mapping entries) ∧
    ∃ key, (key, node) ∈ entries ∧ key.text? = some name ∧ name ≠ mergeKey

/-- The values of entries are among the rule values of the document, with all that they reach. -/
theorem HasEntry.holds {root node part : Node} {name : String} (hentry : root.HasEntry name node)
    (hpart : node.Reaches part) : root.Holds part := by
  obtain ⟨entries, hdefines, key, hmem, hname, hmerge⟩ := hentry
  refine ⟨entries, hdefines, (key, node), hmem, ?_, hpart⟩
  simpa [hname] using hmerge

/-- The source of a rule is an entry of its name. -/
theorem RuleSource.hasEntry {root node : Node} {style name : String}
    (hsource : root.RuleSource style name node) : root.HasEntry name node := by
  obtain ⟨styles, entries, chain, rfl, hstyle, hchain, before, key, after, hflat, hname, -⟩ :=
    hsource
  obtain ⟨earlier, styleKey, later, rfl, -, -⟩ := hstyle
  have hentry : (key, node) ∈ flatEntries chain := by simp [hflat]
  obtain ⟨mapping, hmapping, hmem, hmerge⟩ := mem_flatEntries_iff.mp hentry
  have hstyles : (styleKey, Node.mapping entries)
      ∈ earlier ++ (styleKey, Node.mapping entries) :: later := by
    simp
  refine ⟨mapping, ⟨_, rfl, _, hstyles, hchain.inherits hmapping⟩, key, hmem, hname, ?_⟩
  rintro rfl
  exact hmerge hname

/-- The source of a rule is among the rule values of the document, with all that it reaches. -/
theorem RuleSource.holds {root node part : Node} {style name : String}
    (hsource : root.RuleSource style name node) (hpart : node.Reaches part) :
    root.Holds part :=
  hsource.hasEntry.holds hpart

end Node

/-- A style is read as a table of rules under its name. -/
structure BindsStyle (provider : Provider) (style : Node × Node) (binding : String × Table Rule) :
    Prop where
  name : style.1.text? = some binding.1
  rules : ∃ pairs, style.2 = .mapping pairs ∧
    (rulesOfStyle provider binding.1 pairs).outcome = .ok binding.2

variable {provider : Provider}

theorem BindsStyle.bindsKey (provider : Provider) : BindsKey (BindsStyle provider) where
  name := BindsStyle.name
  unique := by
    rintro ⟨key, node⟩ ⟨name, rules⟩ ⟨name', rules'⟩ hbinds hbinds'
    obtain rfl := Option.some.inj (hbinds.name.symm.trans hbinds'.name)
    obtain ⟨pairs, rfl, hrules⟩ := hbinds.rules
    obtain ⟨_, hpairs, hrules'⟩ := hbinds'.rules
    cases hpairs
    obtain rfl := Except.ok.inj (hrules.symm.trans hrules')
    rfl

/-- The rules of a style, through the chain of the style. -/
theorem exists_collects {style : String} {pairs : List (Node × Node)} {rules : Table Rule}
    (hrules : (rulesOfStyle provider style pairs).outcome = .ok rules) :
    ∃ chain, Node.Chain pairs chain ∧ rules.Collects provider (Node.flatEntries chain) := by
  obtain ⟨chain, hchain, bindings, hbindings, rfl⟩ := rulesOfStyle_eq_ok_iff_chain.mp hrules
  exact ⟨chain, hchain, collects_ofList hbindings⟩

/-- An entry with a text as its key is bound under that text. -/
theorem BindsKey.exists_value {β : Type} {B : Node × Node → String × β → Prop} (hkey : BindsKey B)
    {entries : List (Node × Node)} {bindings : List (String × β)}
    (hbindings : List.Forall₂ B entries bindings) {entry : Node × Node} (hentry : entry ∈ entries)
    {name : String} (hname : entry.1.text? = some name) : ∃ value, B entry (name, value) := by
  obtain ⟨⟨bound, value⟩, -, hbinds⟩ := exists_mem_of_forall₂ hbindings hentry
  obtain rfl := Option.some.inj (hname.symm.trans (hkey.name hbinds))
  exact ⟨value, hbinds⟩

namespace Sheet

/-- Styles are added when every pair binds one, and then they are inserted in order. -/
theorem addStyles_eq_ok_iff {pairs : List (Node × Node)} {styles result : Table (Table Rule)} :
    (addStyles provider pairs styles).outcome = .ok result ↔
      ∃ bindings, List.Forall₂ (BindsStyle provider) pairs bindings ∧
        result = styles.insertAll bindings := by
  induction pairs generalizing styles with
  | nil =>
      simp only [addStyles, outcome_pure, Except.ok.injEq, List.forall₂_nil_left_iff,
        exists_eq_left]
      exact eq_comm
  | cons style rest ih =>
      obtain ⟨key, node⟩ := style
      cases node with
      | mapping pairs =>
          rw [addStyles]
          cases hname : key.text? with
          | none =>
              constructor
              · intro hfails
                cases hfails
              · rintro ⟨bindings, hbindings, -⟩
                cases hbindings with
                | cons hbinds hrest => cases hname.symm.trans hbinds.name
          | some name =>
              simp only [outcome_bind_eq_ok_iff, ih]
              constructor
              · rintro ⟨rules, hrules, bindings, hbindings, rfl⟩
                exact ⟨(name, rules) :: bindings,
                  .cons ⟨hname, pairs, rfl, hrules⟩ hbindings, rfl⟩
              · rintro ⟨_, hbindings, rfl⟩
                cases hbindings with
                | @cons _ binding _ bindings hbinds hbindings =>
                    obtain ⟨bound, rules⟩ := binding
                    obtain rfl := Option.some.inj (hname.symm.trans hbinds.name)
                    obtain ⟨_, hpairs, hrules⟩ := hbinds.rules
                    cases hpairs
                    exact ⟨rules, hrules, bindings, hbindings, rfl⟩
      | scalar | sequence =>
          constructor
          · intro hfails
            cases hfails
          · rintro ⟨bindings, hbindings, -⟩
            cases hbindings with
            | cons hbinds hrest =>
                obtain ⟨pairs, hpairs, -⟩ := hbinds.rules
                cases hpairs

/-- A sheet is what the styles of its document bind, in order. -/
theorem ofNode_eq_ok_iff {root : Node} {sheet : Sheet} :
    (ofNode provider root).outcome = .ok sheet ↔
      ∃ pairs, root = .mapping pairs ∧
        ∃ bindings, List.Forall₂ (BindsStyle provider) pairs bindings ∧
          sheet = ⟨.ofList bindings⟩ := by
  cases root with
  | scalar | sequence =>
      constructor
      · intro hfails
        cases hfails
      · rintro ⟨pairs, hpairs, -⟩
        cases hpairs
  | mapping pairs =>
      rw [ofNode, outcome_bind_eq_ok_iff]
      constructor
      · rintro ⟨styles, hstyles, hsheet⟩
        cases hsheet
        obtain ⟨bindings, hbindings, rfl⟩ := addStyles_eq_ok_iff.mp hstyles
        exact ⟨pairs, rfl, bindings, hbindings, rfl⟩
      · rintro ⟨_, hpairs, bindings, hbindings, rfl⟩
        cases hpairs
        exact ⟨.ofList bindings, addStyles_eq_ok_iff.mpr ⟨bindings, hbindings, rfl⟩, rfl⟩

variable {root : Node} {sheet : Sheet}

/-- The styles of a sheet stand in the order in which the document first names them. -/
theorem names_styles (hsheet : (ofNode provider root).outcome = .ok sheet) :
    ∃ pairs, root = .mapping pairs ∧
      sheet.styles.names = (pairs.filterMap fun pair => pair.1.text?).eraseDups := by
  obtain ⟨pairs, rfl, bindings, hbindings, rfl⟩ := ofNode_eq_ok_iff.mp hsheet
  refine ⟨pairs, rfl, ?_⟩
  rw [Table.names_ofList, (BindsStyle.bindsKey provider).filterMap_text?_eq hbindings]

/-- A style of a sheet is read from the last mapping of its name. -/
theorem find?_styles_eq_some_iff {pairs : List (Node × Node)} {style : String} {rules : Table Rule}
    (hsheet : (ofNode provider (.mapping pairs)).outcome = .ok sheet) :
    sheet.styles.find? style = some rules ↔
      ∃ entries, Node.LastUnder style pairs (.mapping entries) ∧
        (rulesOfStyle provider style entries).outcome = .ok rules := by
  obtain ⟨_, hroot, bindings, hbindings, rfl⟩ := ofNode_eq_ok_iff.mp hsheet
  cases hroot
  rw [Table.find?_ofList_eq_some_iff,
    (BindsStyle.bindsKey provider).exists_binding_iff_exists_entry hbindings]
  constructor
  · rintro ⟨before, key, node, after, hpairs, hname, hlast, hbinds⟩
    obtain ⟨entries, rfl, hrules⟩ := hbinds.rules
    exact ⟨entries, ⟨before, key, after, hpairs, hname, hlast⟩, hrules⟩
  · rintro ⟨entries, ⟨before, key, after, hpairs, hname, hlast⟩, hrules⟩
    exact ⟨before, key, _, after, hpairs, hname, hlast, hname, entries, rfl, hrules⟩

/-- The last mapping of a name is read as the style of that name. -/
theorem exists_rules_of_lastUnder {pairs entries : List (Node × Node)} {style : String}
    (hsheet : (ofNode provider (.mapping pairs)).outcome = .ok sheet)
    (hstyle : Node.LastUnder style pairs (.mapping entries)) :
    ∃ rules, (rulesOfStyle provider style entries).outcome = .ok rules ∧
      sheet.styles.find? style = some rules := by
  obtain ⟨_, hroot, bindings, hbindings, -⟩ := ofNode_eq_ok_iff.mp hsheet
  cases hroot
  obtain ⟨before, key, after, hpairs, hname, hlast⟩ := hstyle
  have hmem : (key, Node.mapping entries) ∈ pairs := by simp [hpairs]
  obtain ⟨rules, hbinds⟩ := (BindsStyle.bindsKey provider).exists_value hbindings hmem hname
  obtain ⟨_, hentries, hrules⟩ := hbinds.rules
  cases hentries
  exact ⟨rules, hrules, (find?_styles_eq_some_iff hsheet).mpr
    ⟨entries, ⟨before, key, after, hpairs, hname, hlast⟩, hrules⟩⟩

/-- The rules of a style stand in the order in which its chain first names them. -/
theorem names_rules {pairs : List (Node × Node)}
    (hsheet : (ofNode provider (.mapping pairs)).outcome = .ok sheet) (style : String) :
    (∃ entries chain, Node.LastUnder style pairs (.mapping entries) ∧ Node.Chain entries chain ∧
      (sheet.rules style).names
        = ((Node.flatEntries chain).filterMap fun entry => entry.1.text?).eraseDups) ∨
      (∀ entries, ¬ Node.LastUnder style pairs (.mapping entries)) ∧
        (sheet.rules style).names = [] := by
  rw [rules]
  cases hfind : sheet.styles.find? style with
  | some found =>
      obtain ⟨entries, hstyle, hread⟩ := (find?_styles_eq_some_iff hsheet).mp hfind
      obtain ⟨chain, hchain, hcollects⟩ := exists_collects hread
      exact .inl ⟨entries, chain, hstyle, hchain, hcollects.names⟩
  | none =>
      refine .inr ⟨fun entries hstyle => ?_, rfl⟩
      obtain ⟨found, -, hfound⟩ := exists_rules_of_lastUnder hsheet hstyle
      cases hfind.symm.trans hfound

theorem rule?_eq_some_iff_find? {style name : String} {rule : Rule} :
    sheet.rule? style name = some rule ↔
      ∃ rules, sheet.styles.find? style = some rules ∧ rules.find? name = some rule := by
  rw [rule?, rules]
  cases sheet.styles.find? style <;> simp

/-- The source of a rule is read as that rule. -/
theorem exists_rule_of_ruleSource (hsheet : (ofNode provider root).outcome = .ok sheet)
    {style name : String} {node : Node} (hsource : root.RuleSource style name node) :
    ∃ rule, (Rule.ofNode provider name node).outcome = .ok rule ∧
      sheet.rule? style name = some rule := by
  obtain ⟨styles, entries, chain, rfl, hstyle, hchain, before, key, after, hflat, hname, hlast⟩ :=
    hsource
  obtain ⟨rules, hread, hrules⟩ := exists_rules_of_lastUnder hsheet hstyle
  obtain ⟨chain', hchain', hcollects⟩ := exists_collects hread
  cases hchain.unique hchain'
  rw [hflat] at hcollects
  obtain ⟨rule, hrule, hfind⟩ := hcollects.find?_of_last hname hlast
  exact ⟨rule, hrule, rule?_eq_some_iff_find?.mpr ⟨rules, hrules, hfind⟩⟩

/-- A sheet has a rule when the rule is read from its source. -/
theorem rule?_eq_some_iff (hsheet : (ofNode provider root).outcome = .ok sheet)
    {style name : String} {rule : Rule} :
    sheet.rule? style name = some rule ↔
      ∃ node, root.RuleSource style name node ∧
        (Rule.ofNode provider name node).outcome = .ok rule := by
  obtain ⟨pairs, rfl, -⟩ := ofNode_eq_ok_iff.mp hsheet
  rw [rule?_eq_some_iff_find?]
  constructor
  · rintro ⟨rules, hrules, hfind⟩
    obtain ⟨entries, hstyle, hread⟩ := (find?_styles_eq_some_iff hsheet).mp hrules
    obtain ⟨chain, hchain, hcollects⟩ := exists_collects hread
    obtain ⟨before, key, node, after, hflat, hname, hlast, hnode⟩ :=
      (hcollects.find?_eq_some_iff name rule).mp hfind
    exact ⟨node, ⟨pairs, entries, chain, rfl, hstyle, hchain, before, key, after, hflat, hname,
      hlast⟩, hnode⟩
  · rintro ⟨node, hsource, hnode⟩
    obtain ⟨_, hread, hrule⟩ := exists_rule_of_ruleSource hsheet hsource
    cases hnode.symm.trans hread
    exact rule?_eq_some_iff_find?.mp hrule

end Sheet

end Stylesheet
