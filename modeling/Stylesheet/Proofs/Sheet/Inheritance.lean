import Stylesheet.Environment.Snapshot
import Stylesheet.Proofs.Lists
import Stylesheet.Proofs.Logged
import Stylesheet.Proofs.Sheet.WellFormed
import Stylesheet.Proofs.Table

/-!
# Inheritance

A style, the mapping under its first merge key, the mapping under the first merge key of that, and
so on, form a chain.  The rules of the style are what the entries of the whole chain bind, the
deepest mapping first: a name keeps the place of its first entry and has the rule of its last.
-/

namespace Stylesheet

open Logged

namespace Node

/-- The entries of a mapping of rules that are rules: all but the merge keys. -/
def ruleEntries (pairs : List (Node × Node)) : List (Node × Node) :=
  pairs.filter fun entry => entry.1.text? != some mergeKey

/-- `Chain pairs chain`: a mapping of rules, then the mapping that it inherits from, and so on to
one that inherits from none. -/
inductive Chain : List (Node × Node) → List (List (Node × Node)) → Prop where
  | deepest {pairs : List (Node × Node)} (hmerge : (Node.mapping pairs).get? mergeKey = none) :
      Chain pairs [pairs]
  | base {pairs base : List (Node × Node)} {chain : List (List (Node × Node))}
      (hmerge : (Node.mapping pairs).get? mergeKey = some (.mapping base))
      (hchain : Chain base chain) : Chain pairs (pairs :: chain)

/-- The rule entries of a chain, those of its deepest mapping first. -/
def flatEntries (chain : List (List (Node × Node))) : List (Node × Node) :=
  chain.reverse.flatMap ruleEntries

theorem Chain.unique {pairs : List (Node × Node)} {chain chain' : List (List (Node × Node))}
    (hchain : Chain pairs chain) (hchain' : Chain pairs chain') : chain' = chain := by
  induction hchain generalizing chain' with
  | deepest hmerge =>
      cases hchain' with
      | deepest => rfl
      | base hmerge' =>
          rw [hmerge] at hmerge'
          cases hmerge'
  | base hmerge hchain ih =>
      cases hchain' with
      | deepest hmerge' =>
          rw [hmerge] at hmerge'
          cases hmerge'
      | base hmerge' hchain' =>
          rw [hmerge] at hmerge'
          cases hmerge'
          rw [ih hchain']

/-- From any of its mappings on, a chain is the chain of that mapping. -/
theorem Chain.of_append {pairs mapping : List (Node × Node)}
    {nearer deeper : List (List (Node × Node))}
    (hchain : Chain pairs (nearer ++ mapping :: deeper)) : Chain mapping (mapping :: deeper) := by
  induction nearer generalizing pairs with
  | nil =>
      cases hchain with
      | deepest hmerge => exact .deepest hmerge
      | base hmerge hchain => exact .base hmerge hchain
  | cons nearest nearer ih =>
      generalize hwhole : nearest :: nearer ++ mapping :: deeper = whole at hchain
      cases hchain with
      | deepest hmerge => simp at hwhole
      | base hmerge hchain =>
          obtain ⟨-, rfl⟩ := List.cons.inj hwhole
          exact ih hchain

/-- A mapping inherits from all mappings of its chain. -/
theorem Chain.inherits {pairs mapping : List (Node × Node)} {chain : List (List (Node × Node))}
    (hchain : Chain pairs chain) (hmapping : mapping ∈ chain) :
    (Node.mapping pairs).Inherits (.mapping mapping) := by
  induction hchain with
  | deepest hmerge =>
      rw [List.mem_singleton.mp hmapping]
      exact .self _
  | base hmerge hchain ih =>
      rcases List.mem_cons.mp hmapping with rfl | hmapping
      · exact .self _
      · exact .merge hmerge (ih hmapping)

/-- What stands under a key is smaller than the mapping. -/
theorem sizeOf_lt_of_get? {pairs : List (Node × Node)} {name : String} {node : Node}
    (hnode : (Node.mapping pairs).get? name = some node) : sizeOf node < sizeOf pairs := by
  obtain ⟨⟨key, value⟩, hfound, rfl⟩ := Option.map_eq_some_iff.mp hnode
  have hpair := List.sizeOf_lt_of_mem (List.mem_of_find?_eq_some hfound)
  simp only [Prod.mk.sizeOf_spec] at hpair
  show sizeOf value < sizeOf pairs
  omega

theorem Chain.exists_cons {pairs : List (Node × Node)} {chain : List (List (Node × Node))}
    (hchain : Chain pairs chain) : ∃ deeper, chain = pairs :: deeper := by
  cases hchain with
  | deepest => exact ⟨[], rfl⟩
  | base hmerge hchain => exact ⟨_, rfl⟩

theorem ruleEntries_append_cons {before after : List (Node × Node)} {entry : Node × Node}
    (hentry : entry.1.text? ≠ some mergeKey) :
    ruleEntries (before ++ entry :: after)
      = ruleEntries before ++ entry :: ruleEntries after := by
  simp [ruleEntries, hentry]

theorem mem_ruleEntries_iff {pairs : List (Node × Node)} {entry : Node × Node} :
    entry ∈ ruleEntries pairs ↔ entry ∈ pairs ∧ entry.1.text? ≠ some mergeKey := by
  simp [ruleEntries]

theorem mem_flatEntries_iff {chain : List (List (Node × Node))} {entry : Node × Node} :
    entry ∈ flatEntries chain ↔
      ∃ mapping ∈ chain, entry ∈ mapping ∧ entry.1.text? ≠ some mergeKey := by
  simp [flatEntries, mem_ruleEntries_iff]

theorem flatEntries_append (nearer deeper : List (List (Node × Node))) :
    flatEntries (nearer ++ deeper) = flatEntries deeper ++ flatEntries nearer := by
  simp [flatEntries]

theorem flatEntries_cons (mapping : List (Node × Node)) (deeper : List (List (Node × Node))) :
    flatEntries (mapping :: deeper) = flatEntries deeper ++ ruleEntries mapping := by
  simp [flatEntries]

end Node

/-- An entry of a mapping of rules is read as a rule under its name. -/
structure Binds (provider : Provider) (entry : Node × Node) (binding : String × Rule) : Prop where
  name : entry.1.text? = some binding.1
  rule : (Rule.ofNode provider binding.1 entry.2).outcome = .ok binding.2

variable {provider : Provider} {style : String}

/-- Rules are added when every rule entry binds one, and then they are inserted in order. -/
theorem addRules_eq_ok_iff {pairs : List (Node × Node)} {rules result : Table Rule} :
    (addRules provider pairs rules).outcome = .ok result ↔
      ∃ bindings, List.Forall₂ (Binds provider) (Node.ruleEntries pairs) bindings ∧
        result = rules.insertAll bindings := by
  induction pairs generalizing rules with
  | nil =>
      simp only [addRules, outcome_pure, Except.ok.injEq, Node.ruleEntries, List.filter_nil,
        List.forall₂_nil_left_iff, exists_eq_left]
      exact eq_comm
  | cons entry rest ih =>
      obtain ⟨key, node⟩ := entry
      rw [addRules]
      by_cases hmerge : key.text? = some mergeKey
      · have hentries : Node.ruleEntries ((key, node) :: rest) = Node.ruleEntries rest := by
          simp [Node.ruleEntries, hmerge]
        simp only [hmerge, if_true, hentries]
        exact ih
      · have hentries : Node.ruleEntries ((key, node) :: rest)
            = (key, node) :: Node.ruleEntries rest := by
          simp [Node.ruleEntries, hmerge]
        rw [hentries]
        cases hname : key.text? with
        | none =>
            constructor
            · nofun
            · rintro ⟨bindings, hbindings, -⟩
              cases hbindings with
              | cons hbinds hrest => cases hname.symm.trans hbinds.name
        | some name =>
            have hrule : name ≠ mergeKey := fun heq => hmerge (heq ▸ hname)
            simp only [hrule, if_false, outcome_bind_eq_ok_iff, outcome_mapError_eq_ok_iff, ih]
            constructor
            · rintro ⟨rule, hread, bindings, hbindings, rfl⟩
              exact ⟨(name, rule) :: bindings, .cons ⟨hname, hread⟩ hbindings, rfl⟩
            · rintro ⟨_, hbindings, rfl⟩
              cases hbindings with
              | @cons _ binding _ bindings hbinds hbindings =>
                  obtain ⟨bound, rule⟩ := binding
                  obtain rfl := Option.some.inj (hname.symm.trans hbinds.name)
                  exact ⟨rule, hbinds.rule, bindings, hbindings, rfl⟩

/-- What is inherited stands under the first merge key. -/
theorem inheritedRules_eq (pairs : List (Node × Node)) :
    inheritedRules provider style pairs
      = match (Node.mapping pairs).get? mergeKey with
        | none => pure ∅
        | some node => rulesOfBase provider style node := by
  induction pairs with
  | nil =>
      rw [inheritedRules]
      rfl
  | cons entry rest ih =>
      obtain ⟨key, node⟩ := entry
      rw [inheritedRules, Node.get?_mapping_cons]
      by_cases hmerge : key.text? = some mergeKey
      · simp [hmerge]
      · simp only [hmerge, if_false]
        exact ih

/-- The rules of a mapping are inherited and its own. -/
theorem rulesOfBase_mapping (pairs : List (Node × Node)) :
    rulesOfBase provider style (.mapping pairs) = rulesOfStyle provider style pairs := by
  rw [rulesOfBase]
  rfl

theorem rulesOfBase_eq_ok_iff {node : Node} {rules : Table Rule} :
    (rulesOfBase provider style node).outcome = .ok rules ↔
      ∃ base, node = .mapping base ∧ (rulesOfStyle provider style base).outcome = .ok rules := by
  cases node with
  | mapping base => simp [rulesOfBase_mapping]
  | scalar value =>
      rw [rulesOfBase]
      · simp [Logged.fail]
      all_goals nofun
  | sequence items =>
      rw [rulesOfBase]
      · simp [Logged.fail]
      all_goals nofun

theorem rulesOfStyle_eq_ok_iff {pairs : List (Node × Node)} {rules : Table Rule} :
    (rulesOfStyle provider style pairs).outcome = .ok rules ↔
      ∃ inherited,
        ((Node.mapping pairs).get? mergeKey = none ∧ inherited = ∅ ∨
          ∃ base, (Node.mapping pairs).get? mergeKey = some (.mapping base) ∧
            (rulesOfStyle provider style base).outcome = .ok inherited) ∧
        (addRules provider pairs inherited).outcome = .ok rules := by
  rw [rulesOfStyle, inheritedRules_eq, outcome_bind_eq_ok_iff]
  refine exists_congr fun inherited => and_congr_left fun _ => ?_
  cases hmerge : (Node.mapping pairs).get? mergeKey with
  | none => simp [eq_comm]
  | some node => simp [rulesOfBase_eq_ok_iff]

theorem exists_chain {pairs : List (Node × Node)} {rules : Table Rule}
    (hrules : (rulesOfStyle provider style pairs).outcome = .ok rules) :
    ∃ chain, Node.Chain pairs chain ∧
      ∃ bindings, List.Forall₂ (Binds provider) (Node.flatEntries chain) bindings ∧
        rules = .ofList bindings := by
  obtain ⟨inherited, hinherited, hadded⟩ := rulesOfStyle_eq_ok_iff.mp hrules
  obtain ⟨own, hown, rfl⟩ := addRules_eq_ok_iff.mp hadded
  rcases hinherited with ⟨hmerge, rfl⟩ | ⟨base, hmerge, hbase⟩
  · exact ⟨[pairs], .deepest hmerge, own, by simpa [Node.flatEntries] using hown, rfl⟩
  · have hsmaller := Node.sizeOf_lt_of_get? hmerge
    obtain ⟨chain, hchain, deeper, hdeeper, rfl⟩ := exists_chain hbase
    refine ⟨pairs :: chain, .base hmerge hchain, deeper ++ own, ?_,
      (Table.insertAll_append ∅ deeper own).symm⟩
    rw [Node.flatEntries_cons]
    exact List.rel_append hdeeper hown
termination_by sizeOf pairs
decreasing_by simp only [Node.mapping.sizeOf_spec] at hsmaller; omega

/-- The rules of a style are what the rule entries of its chain bind, in order. -/
theorem rulesOfStyle_eq_ok_iff_chain {pairs : List (Node × Node)} {rules : Table Rule} :
    (rulesOfStyle provider style pairs).outcome = .ok rules ↔
      ∃ chain, Node.Chain pairs chain ∧
        ∃ bindings, List.Forall₂ (Binds provider) (Node.flatEntries chain) bindings ∧
          rules = .ofList bindings := by
  constructor
  · intro hrules
    exact exists_chain hrules
  · rintro ⟨chain, hchain, bindings, hbindings, rfl⟩
    induction hchain generalizing bindings with
    | deepest hmerge =>
        rw [rulesOfStyle_eq_ok_iff]
        refine ⟨∅, .inl ⟨hmerge, rfl⟩, addRules_eq_ok_iff.mpr ⟨bindings, ?_, rfl⟩⟩
        simpa [Node.flatEntries] using hbindings
    | base hmerge hchain ih =>
        rw [Node.flatEntries_cons] at hbindings
        obtain ⟨inherited, own, hinherited, hown, rfl⟩ := forall₂_append_left_iff.mp hbindings
        rw [rulesOfStyle_eq_ok_iff]
        refine ⟨.ofList inherited, .inr ⟨_, hmerge, ih inherited hinherited⟩, ?_⟩
        exact addRules_eq_ok_iff.mpr ⟨own, hown, Table.insertAll_append ∅ inherited own⟩

/-- `rules.Collects provider entries`: the table binds the names of the entries in the order in
which they first come, each to the rule of its last entry. -/
structure Table.Collects (rules : Table Rule) (provider : Provider)
    (entries : List (Node × Node)) : Prop where
  reads : ∀ entry ∈ entries, ∃ name rule, entry.1.text? = some name ∧
    (Rule.ofNode provider name entry.2).outcome = .ok rule
  names : rules.names = (entries.filterMap fun entry => entry.1.text?).eraseDups
  find?_eq_some_iff : ∀ name rule, rules.find? name = some rule ↔
    ∃ before key node after, entries = before ++ (key, node) :: after ∧
      key.text? = some name ∧ (∀ entry ∈ after, entry.1.text? ≠ some name) ∧
      (Rule.ofNode provider name node).outcome = .ok rule

section Bindings

/-- A relation under which an entry binds the text of its key, and binds it to one value. -/
structure BindsKey {β : Type} (B : Node × Node → String × β → Prop) : Prop where
  name : ∀ {entry binding}, B entry binding → entry.1.text? = some binding.1
  unique : ∀ {entry binding binding'}, B entry binding → B entry binding' → binding' = binding

theorem Binds.bindsKey (provider : Provider) : BindsKey (Binds provider) where
  name := Binds.name
  unique := by
    rintro entry ⟨name, rule⟩ ⟨name', rule'⟩ hbinds hbinds'
    obtain rfl := Option.some.inj (hbinds.name.symm.trans hbinds'.name)
    obtain rfl := Except.ok.inj (hbinds.rule.symm.trans hbinds'.rule)
    rfl

variable {β : Type} {B : Node × Node → String × β → Prop}
variable {entries : List (Node × Node)} {bindings : List (String × β)}

theorem BindsKey.filterMap_text?_eq (hkey : BindsKey B)
    (hbindings : List.Forall₂ B entries bindings) :
    entries.filterMap (fun entry => entry.1.text?) = bindings.map Prod.fst := by
  induction hbindings with
  | nil => rfl
  | cons hbinds hrest ih => rw [List.filterMap_cons, hkey.name hbinds, ih, List.map_cons]

theorem exists_rule_of_forall₂ {bindings : List (String × Rule)}
    (hbindings : List.Forall₂ (Binds provider) entries bindings)
    {entry : Node × Node} (hentry : entry ∈ entries) :
    ∃ name rule, entry.1.text? = some name ∧
      (Rule.ofNode provider name entry.2).outcome = .ok rule := by
  obtain ⟨binding, -, hbinds⟩ := exists_mem_of_forall₂ hbindings hentry
  exact ⟨binding.1, binding.2, hbinds.name, hbinds.rule⟩

/-- A name is not bound by entries without it. -/
theorem BindsKey.not_mem_map_fst_iff (hkey : BindsKey B)
    (hbindings : List.Forall₂ B entries bindings) {name : String} :
    name ∉ bindings.map Prod.fst ↔ ∀ entry ∈ entries, entry.1.text? ≠ some name := by
  rw [← hkey.filterMap_text?_eq hbindings]
  simp [List.mem_filterMap]

/-- The last binding of a name belongs to its last entry. -/
theorem BindsKey.exists_binding_iff_exists_entry (hkey : BindsKey B)
    (hbindings : List.Forall₂ B entries bindings) {name : String} {value : β} :
    (∃ before after, bindings = before ++ (name, value) :: after ∧ name ∉ after.map Prod.fst) ↔
      ∃ before key node after, entries = before ++ (key, node) :: after ∧
        key.text? = some name ∧ (∀ entry ∈ after, entry.1.text? ≠ some name) ∧
        B (key, node) (name, value) := by
  constructor
  · rintro ⟨before, after, rfl, hlast⟩
    obtain ⟨earlier, later, hbefore, hafter, rfl⟩ := forall₂_append_right_iff.mp hbindings
    cases hafter with
    | @cons entry _ later _ hbinds hafter =>
        refine ⟨earlier, entry.1, entry.2, later, rfl, hkey.name hbinds, ?_, hbinds⟩
        exact (hkey.not_mem_map_fst_iff hafter).mp hlast
  · rintro ⟨before, key, node, after, rfl, hname, hlast, hentry⟩
    obtain ⟨earlier, later, hbefore, hafter, rfl⟩ := forall₂_append_left_iff.mp hbindings
    cases hafter with
    | @cons _ binding _ later hbinds hafter =>
        obtain rfl := hkey.unique hentry hbinds
        exact ⟨earlier, later, rfl, (hkey.not_mem_map_fst_iff hafter).mpr hlast⟩

theorem collects_ofList {bindings : List (String × Rule)}
    (hbindings : List.Forall₂ (Binds provider) entries bindings) :
    (Table.ofList bindings).Collects provider entries where
  reads := fun _ hentry => exists_rule_of_forall₂ hbindings hentry
  names := by rw [Table.names_ofList, (Binds.bindsKey provider).filterMap_text?_eq hbindings]
  find?_eq_some_iff := by
    intro name rule
    rw [Table.find?_ofList_eq_some_iff,
      (Binds.bindsKey provider).exists_binding_iff_exists_entry hbindings]
    constructor
    · rintro ⟨before, key, node, after, hentries, hname, hlast, hbinds⟩
      exact ⟨before, key, node, after, hentries, hname, hlast, hbinds.rule⟩
    · rintro ⟨before, key, node, after, hentries, hname, hlast, hrule⟩
      exact ⟨before, key, node, after, hentries, hname, hlast, hname, hrule⟩

end Bindings

namespace Table.Collects

variable {rules : Table Rule} {before after : List (Node × Node)} {key node : Node} {name : String}

/-- The last entry of a name has the rule that the table finds. -/
theorem find?_of_last (hcollects : rules.Collects provider (before ++ (key, node) :: after))
    (hname : key.text? = some name) (hlast : ∀ entry ∈ after, entry.1.text? ≠ some name) :
    ∃ rule, (Rule.ofNode provider name node).outcome = .ok rule ∧
      rules.find? name = some rule := by
  have hmem : (key, node) ∈ before ++ (key, node) :: after := by simp
  obtain ⟨own, rule, hown, hrule⟩ := hcollects.reads (key, node) hmem
  obtain rfl := Option.some.inj (hname.symm.trans hown)
  exact ⟨rule, hrule, (hcollects.find?_eq_some_iff name rule).mpr
    ⟨before, key, node, after, rfl, hname, hlast, hrule⟩⟩

end Table.Collects

/-- A mapping further up a chain has a table of its own, and a name without an entry nearer to the
style has the same rule in both. -/
theorem exists_baseRules {nearer deeper : List (List (Node × Node))} {base : List (Node × Node)}
    {bindings : List (String × Rule)} (hbase : Node.Chain base (base :: deeper))
    (hbindings : List.Forall₂ (Binds provider) (Node.flatEntries (nearer ++ base :: deeper))
      bindings) (baseStyle : String) :
    ∃ baseRules, (rulesOfStyle provider baseStyle base).outcome = .ok baseRules ∧
      ∀ name, (∀ mapping ∈ nearer, ∀ entry ∈ mapping, entry.1.text? ≠ some name) →
        (Table.ofList bindings).find? name = baseRules.find? name := by
  rw [Node.flatEntries_append] at hbindings
  obtain ⟨inherited, own, hinherited, hown, rfl⟩ := forall₂_append_left_iff.mp hbindings
  refine ⟨.ofList inherited, rulesOfStyle_eq_ok_iff_chain.mpr ⟨_, hbase, _, hinherited, rfl⟩, ?_⟩
  intro name hname
  apply Table.find?_ofList_append
  rw [(Binds.bindsKey provider).not_mem_map_fst_iff hown]
  intro entry hentry
  obtain ⟨mapping, hmapping, hentry, -⟩ := Node.mem_flatEntries_iff.mp hentry
  exact hname mapping hmapping entry hentry

/-- The rules of a style are those of its chain, flattened from the deepest mapping on: each name
has the place of its first entry and the rule of its last.  A merge key is no rule, the style's own
entries count before all others, and a rule that nothing nearer redefines is that of the mapping
further up. -/
theorem rulesOfStyle_flattens_chain {pairs : List (Node × Node)} {rules : Table Rule}
    (hrules : (rulesOfStyle provider style pairs).outcome = .ok rules) :
    ∃ chain, Node.Chain pairs chain ∧ (∀ other, Node.Chain pairs other → other = chain) ∧
      rules.Collects provider (Node.flatEntries chain) ∧
      mergeKey ∉ rules.names ∧
      (∀ before key node after name, pairs = before ++ (key, node) :: after →
        key.text? = some name → name ≠ mergeKey →
        (∀ entry ∈ after, entry.1.text? ≠ some name) →
        ∃ rule, (Rule.ofNode provider name node).outcome = .ok rule ∧
          rules.find? name = some rule) ∧
      (∀ nearer base deeper, chain = nearer ++ base :: deeper → ∀ baseStyle,
        ∃ baseRules, (rulesOfStyle provider baseStyle base).outcome = .ok baseRules ∧
          ∀ name, (∀ mapping ∈ nearer, ∀ entry ∈ mapping, entry.1.text? ≠ some name) →
            rules.find? name = baseRules.find? name) := by
  obtain ⟨chain, hchain, bindings, hbindings, rfl⟩ := rulesOfStyle_eq_ok_iff_chain.mp hrules
  have hcollects := collects_ofList hbindings
  refine ⟨chain, hchain, fun other hother => hchain.unique hother, hcollects, ?_, ?_, ?_⟩
  · rw [hcollects.names, List.mem_eraseDups, List.mem_filterMap]
    rintro ⟨entry, hentry, hmerge⟩
    obtain ⟨mapping, -, -, hrule⟩ := Node.mem_flatEntries_iff.mp hentry
    exact hrule hmerge
  · rintro before key node after name rfl hname hrule hlast
    obtain ⟨deeper, rfl⟩ := hchain.exists_cons
    have hsplit : Node.flatEntries ((before ++ (key, node) :: after) :: deeper)
        = (Node.flatEntries deeper ++ Node.ruleEntries before)
          ++ (key, node) :: Node.ruleEntries after := by
      rw [Node.flatEntries_cons, Node.ruleEntries_append_cons (by rw [hname]; simpa using hrule),
        List.append_assoc]
    rw [hsplit] at hcollects
    apply hcollects.find?_of_last hname
    intro entry hentry
    exact hlast entry (Node.mem_ruleEntries_iff.mp hentry).1
  · rintro nearer base deeper rfl baseStyle
    exact exists_baseRules hchain.of_append hbindings baseStyle

def integerEntry (name : String) (n : Int) : Node × Node :=
  (.scalar (.text name), .scalar (.number (.integer n)))

def integerRule (name : String) (n : Int) : Rule :=
  ⟨name, .plain (.number (.integer n))⟩

/-- A card is a panel, and a panel is a frame. -/
def frameEntries : List (Node × Node) :=
  [integerEntry "width" 1, integerEntry "height" 2]

def panelEntries : List (Node × Node) :=
  [(.scalar (.text mergeKey), .mapping frameEntries), integerEntry "height" 3]

def cardEntries : List (Node × Node) :=
  [integerEntry "border" 4, (.scalar (.text mergeKey), .mapping panelEntries),
    integerEntry "width" 5]

def cardRules : Table Rule :=
  .ofList [("width", integerRule "width" 5), ("height", integerRule "height" 3),
    ("border", integerRule "border" 4)]

theorem rulesOfStyle_cardEntries (provider : Provider) :
    (rulesOfStyle provider "card" cardEntries).outcome = .ok cardRules := rfl

theorem rulesOfStyle_flattens_chain_card :
    (rulesOfStyle ({} : Environment).provider "card" cardEntries).outcome = .ok cardRules ∧
      cardRules.names = ["width", "height", "border"] ∧
      cardRules.Collects ({} : Environment).provider
        (Node.flatEntries [cardEntries, panelEntries, frameEntries]) ∧
      cardRules.find? "width" = some (integerRule "width" 5) ∧
      ∃ baseRules,
        (rulesOfStyle ({} : Environment).provider "panel" panelEntries).outcome = .ok baseRules ∧
        cardRules.find? "height" = baseRules.find? "height" := by
  obtain ⟨chain, -, hunique, hcollects, -, hown, hbases⟩ :=
    rulesOfStyle_flattens_chain (rulesOfStyle_cardEntries ({} : Environment).provider)
  obtain rfl := hunique [cardEntries, panelEntries, frameEntries]
    (.base rfl (.base rfl (.deepest rfl)))
  obtain ⟨rule, hrule, hwidth⟩ := hown [integerEntry "border" 4, _] _ _ [] "width" rfl rfl
    (by decide) nofun
  cases hrule
  obtain ⟨baseRules, hpanel, hsame⟩ := hbases [cardEntries] panelEntries [frameEntries] rfl "panel"
  refine ⟨rulesOfStyle_cardEntries _, rfl, hcollects, hwidth, baseRules, hpanel, ?_⟩
  apply hsame
  intro mapping hmapping
  rw [List.mem_singleton.mp hmapping]
  decide

end Stylesheet
