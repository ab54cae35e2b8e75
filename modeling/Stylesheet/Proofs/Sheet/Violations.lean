import Stylesheet.Proofs.Sheet.WellFormed

/-!
# Violations

What is wrong with a document, in the order in which a reader comes to it and without stopping at
the first.  Each violation is one of a part that is reached from the root, taken by itself, and
there is none exactly in the well-formed documents.
-/

namespace Stylesheet

/-- The wrong number of arguments of a literal, if that is what it has. -/
def Literal.countViolations (mark : String) (expected : Nat) (text : String) :
    List ArgumentCountError :=
  let found := (callArguments mark text).length
  if isCallOf mark text ∧ found ≠ expected then [⟨mark, some expected, some found⟩] else []

def Scalar.violations : Scalar → List RuleError
  | .text s =>
      if (Literal.body? s).isSome then []
      else (Literal.countViolations Literal.fontMark 2 s
        ++ Literal.countViolations Literal.colorMark 1 s).map .argumentCount
  | _ => []

namespace Node

def conditionViolations (key : Node) : List RuleError :=
  if key.condition?.isSome then [] else [key.conditionError]

mutual

def valueViolations : Node → List RuleError
  | .scalar value => value.violations
  | .sequence _ => []
  | .mapping pairs => branchViolations pairs

/-- What is wrong with the branches of a conditional value: for each its key, then its value. -/
def branchViolations : List (Node × Node) → List RuleError
  | [] => []
  | (key, node) :: rest =>
      key.conditionViolations ++ (node.valueViolations ++ branchViolations rest)

end

def entryViolations (entry : Node × Node) : List SheetError :=
  match entry.1.text? with
  | none => [.ruleWithoutName]
  | some name => if name = mergeKey then [] else entry.2.valueViolations.map .rule

mutual

/-- What is wrong with what a mapping of rules inherits. -/
def inheritedViolations (style : String) : List (Node × Node) → List SheetError
  | [] => []
  | (key, node) :: rest =>
      if key.text? = some mergeKey then definitionViolations style node
      else inheritedViolations style rest

/-- What is wrong with a node that defines rules: what it inherits, then its own entries. -/
def definitionViolations (style : String) : Node → List SheetError
  | .mapping pairs => inheritedViolations style pairs ++ pairs.flatMap entryViolations
  | _ => [.baseNotMapping style]

end

def styleViolations : Node × Node → List SheetError
  | (key, .mapping pairs) => match key.text? with
    | none => [.styleNotMapping]
    | some style => definitionViolations style (.mapping pairs)
  | _ => [.styleNotMapping]

/-- What is wrong with a document. -/
def violations : Node → List SheetError
  | .mapping styles => styles.flatMap styleViolations
  | _ => [.rootNotMapping]

end Node

theorem Literal.countViolations_eq_nil_iff {mark : String} {expected : Nat} {text : String} :
    countViolations mark expected text = [] ↔
      (isCallOf mark text → (callArguments mark text).length = expected) := by
  unfold countViolations
  by_cases hcall : isCallOf mark text = true <;>
    by_cases hlength : (callArguments mark text).length = expected <;> simp [hcall, hlength]

theorem Scalar.violations_text_eq_nil_iff {text : String} :
    (Scalar.text text).violations = [] ↔ Literal.WellCounted text := by
  unfold violations Literal.WellCounted
  cases hbody : Literal.body? text with
  | none => simp [hbody, Literal.countViolations_eq_nil_iff]
  | some body => simp [hbody]

namespace Node

theorem condition?_isSome_iff {key : Node} :
    key.condition?.isSome ↔
      ∃ source body, key.text? = some source ∧ Literal.body? source = some body := by
  unfold condition?
  cases hsource : key.text? with
  | none => simp
  | some source => cases hbody : Literal.body? source <;> simp [hbody]

theorem conditionViolations_eq_nil_iff {key : Node} :
    key.conditionViolations = [] ↔
      ∃ source body, key.text? = some source ∧ Literal.body? source = some body := by
  rw [← condition?_isSome_iff]
  unfold conditionViolations
  cases key.condition?.isSome <;> simp

/-- What is wrong with a node as a rule's value, apart from the values of its branches. -/
def ownViolations : Node → List RuleError
  | .scalar value => value.violations
  | .sequence _ => []
  | .mapping pairs => pairs.flatMap fun pair => pair.1.conditionViolations

theorem ownViolations_eq_nil_iff {node : Node} : node.ownViolations = [] ↔ node.IsValue := by
  cases node with
  | scalar value =>
      cases value with
      | text s => exact Scalar.violations_text_eq_nil_iff
      | null | boolean b | number n => exact iff_of_true rfl trivial
  | sequence items => exact iff_of_true rfl trivial
  | mapping pairs =>
      rw [ownViolations, List.flatMap_eq_nil_iff, IsValue]
      exact forall₂_congr fun pair _ => conditionViolations_eq_nil_iff

mutual

/-- What is wrong with a node is what is wrong with a part of it that it reaches. -/
theorem mem_valueViolations_iff {e : RuleError} :
    ∀ node : Node, e ∈ node.valueViolations ↔
      ∃ part, node.Reaches part ∧ e ∈ part.ownViolations
  | .scalar value => by
      simp only [reaches_scalar_iff, exists_eq_left, valueViolations, ownViolations]
  | .sequence items => by
      simp only [reaches_sequence_iff, exists_eq_left, valueViolations, ownViolations]
  | .mapping pairs => by
      rw [valueViolations, mem_branchViolations_iff pairs]
      constructor
      · rintro (hkey | ⟨pair, hpair, part, hpart, he⟩)
        · exact ⟨.mapping pairs, .self _, hkey⟩
        · exact ⟨part, .branch hpair hpart, he⟩
      · rintro ⟨part, hpart, he⟩
        rcases reaches_mapping_iff.mp hpart with rfl | ⟨pair, hpair, hpart⟩
        · exact .inl he
        · exact .inr ⟨pair, hpair, part, hpart, he⟩

theorem mem_branchViolations_iff {e : RuleError} :
    ∀ pairs : List (Node × Node), e ∈ branchViolations pairs ↔
      e ∈ (Node.mapping pairs).ownViolations ∨
        ∃ pair ∈ pairs, ∃ part, pair.2.Reaches part ∧ e ∈ part.ownViolations
  | [] => by simp [branchViolations, ownViolations]
  | (key, node) :: rest => by
      rw [branchViolations, List.mem_append, List.mem_append, mem_valueViolations_iff node,
        mem_branchViolations_iff rest]
      simp only [ownViolations, List.flatMap_cons, List.mem_append, List.mem_cons,
        exists_eq_or_imp]
      constructor
      · rintro (hkey | hvalue | hkeys | hvalues)
        · exact .inl (.inl hkey)
        · exact .inr (.inl hvalue)
        · exact .inl (.inr hkeys)
        · exact .inr (.inr hvalues)
      · rintro ((hkey | hkeys) | hvalue | hvalues)
        · exact .inl hkey
        · exact .inr (.inr (.inl hkeys))
        · exact .inr (.inl hvalue)
        · exact .inr (.inr (.inr hvalues))

end

/-- Nothing is wrong with a node when all that it reaches is in order. -/
theorem valueViolations_eq_nil_iff {node : Node} :
    node.valueViolations = [] ↔ ∀ part, node.Reaches part → part.IsValue := by
  simp only [List.eq_nil_iff_forall_not_mem, mem_valueViolations_iff,
    ← ownViolations_eq_nil_iff]
  constructor
  · intro hnone part hpart e he
    exact hnone e ⟨part, hpart, he⟩
  · rintro hall e ⟨part, hpart, he⟩
    exact hall part hpart e he

/-- Nothing is wrong with an entry that has a name and, unless it is a merge key, a value in
order. -/
theorem entryViolations_eq_nil_iff {entry : Node × Node} :
    entryViolations entry = [] ↔ (∃ name, entry.1.text? = some name) ∧
      (entry.1.text? ≠ some mergeKey → ∀ part, entry.2.Reaches part → part.IsValue) := by
  unfold entryViolations
  rw [← valueViolations_eq_nil_iff]
  cases hname : entry.1.text? with
  | none => simp
  | some name => by_cases hmerge : name = mergeKey <;> simp [hmerge]

/-- What is wrong with a node that defines rules, apart from what it inherits. -/
def ownRuleViolations (style : String) : Node → List SheetError
  | .mapping entries => entries.flatMap entryViolations
  | _ => [.baseNotMapping style]

/-- A node defines rules: it is a mapping, and nothing is wrong with its own entries. -/
def IsDefinition (node : Node) : Prop :=
  ∃ entries, node = .mapping entries ∧ ∀ entry ∈ entries, entryViolations entry = []

theorem ownRuleViolations_eq_nil_iff {style : String} {node : Node} :
    node.ownRuleViolations style = [] ↔ node.IsDefinition := by
  cases node <;> simp [ownRuleViolations, IsDefinition]

mutual

/-- What is wrong with a definition is what is wrong with a node that it is or inherits from. -/
theorem mem_definitionViolations_iff {style : String} {e : SheetError} :
    ∀ node : Node, e ∈ definitionViolations style node ↔
      ∃ base, node.Inherits base ∧ e ∈ base.ownRuleViolations style
  | .mapping pairs => by
      rw [definitionViolations, List.mem_append, mem_inheritedViolations_iff pairs]
      constructor
      · rintro (⟨node, hmerge, base, hbase, he⟩ | he)
        · exact ⟨base, .merge hmerge hbase, he⟩
        · exact ⟨.mapping pairs, .self _, he⟩
      · rintro ⟨base, hbase, he⟩
        rcases inherits_mapping_iff.mp hbase with rfl | ⟨node, hmerge, hbase⟩
        · exact .inr he
        · exact .inl ⟨node, hmerge, base, hbase, he⟩
  | .scalar value => by
      simp only [inherits_scalar_iff, exists_eq_left, definitionViolations, ownRuleViolations]
  | .sequence items => by
      simp only [inherits_sequence_iff, exists_eq_left, definitionViolations, ownRuleViolations]

theorem mem_inheritedViolations_iff {style : String} {e : SheetError} :
    ∀ pairs : List (Node × Node), e ∈ inheritedViolations style pairs ↔
      ∃ node, (Node.mapping pairs).get? mergeKey = some node ∧
        ∃ base, node.Inherits base ∧ e ∈ base.ownRuleViolations style
  | [] => by simp [inheritedViolations, get?]
  | (key, node) :: rest => by
      rw [inheritedViolations, get?_mapping_cons]
      by_cases hkey : key.text? = some mergeKey
      · simp [hkey, mem_definitionViolations_iff node]
      · simp [hkey, mem_inheritedViolations_iff rest]

end

/-- Nothing is wrong with a definition when it and all that it inherits from define rules. -/
theorem definitionViolations_eq_nil_iff {style : String} {node : Node} :
    definitionViolations style node = [] ↔ ∀ base, node.Inherits base → base.IsDefinition := by
  have hown (base : Node) : base.IsDefinition ↔ base.ownRuleViolations style = [] :=
    ownRuleViolations_eq_nil_iff.symm
  simp only [List.eq_nil_iff_forall_not_mem, mem_definitionViolations_iff, hown]
  constructor
  · intro hnone base hbase e he
    exact hnone e ⟨base, hbase, he⟩
  · rintro hall e ⟨base, hbase, he⟩
    exact hall base hbase e he

/-- Nothing is wrong with a style that has a name and whose value, with all that it inherits from,
defines rules. -/
theorem styleViolations_eq_nil_iff {style : Node × Node} :
    styleViolations style = [] ↔
      (∃ name, style.1.text? = some name) ∧
        ∀ definition, style.2.Inherits definition → definition.IsDefinition := by
  obtain ⟨key, node⟩ := style
  have hnot (hnode : ∀ pairs, node ≠ .mapping pairs) :
      ¬ ∀ definition, node.Inherits definition → definition.IsDefinition := by
    intro hall
    obtain ⟨entries, hentries, -⟩ := hall node (.self node)
    exact hnode entries hentries
  cases node with
  | mapping pairs =>
      cases hname : key.text? with
      | none => simp [styleViolations, hname]
      | some name => simp [styleViolations, hname, definitionViolations_eq_nil_iff]
  | scalar value => simp only [styleViolations, List.cons_ne_nil, hnot nofun, and_false]
  | sequence items => simp only [styleViolations, List.cons_ne_nil, hnot nofun, and_false]

/-- The definitions of a document define rules when they are mappings whose entries have names and
hold values in order. -/
theorem forall_isDefinition_iff {root : Node} :
    (∀ definition, root.Defines definition → definition.IsDefinition) ↔
      (∀ definition, root.Defines definition → ∃ entries, definition = .mapping entries) ∧
      (∀ entries, root.Defines (.mapping entries) →
        ∀ entry ∈ entries, ∃ name, entry.1.text? = some name) ∧
      ∀ value, root.Holds value → value.IsValue := by
  constructor
  · intro hall
    have hentries {entries : List (Node × Node)} (hdefines : root.Defines (.mapping entries)) :
        ∀ entry ∈ entries, entryViolations entry = [] := by
      obtain ⟨entries', hsame, hnone⟩ := hall _ hdefines
      cases hsame
      exact hnone
    refine ⟨?_, ?_, ?_⟩
    · intro definition hdefines
      obtain ⟨entries, hmapping, -⟩ := hall definition hdefines
      exact ⟨entries, hmapping⟩
    · intro entries hdefines entry hentry
      exact (entryViolations_eq_nil_iff.mp (hentries hdefines entry hentry)).1
    · rintro value ⟨entries, hdefines, entry, hentry, hrule, hreaches⟩
      exact (entryViolations_eq_nil_iff.mp (hentries hdefines entry hentry)).2 hrule value hreaches
  · rintro ⟨hmappings, hnames, hvalues⟩ definition hdefines
    obtain ⟨entries, rfl⟩ := hmappings definition hdefines
    refine ⟨entries, rfl, fun entry hentry => ?_⟩
    refine entryViolations_eq_nil_iff.mpr ⟨hnames entries hdefines entry hentry, ?_⟩
    intro hrule value hreaches
    exact hvalues value ⟨entries, hdefines, entry, hentry, hrule, hreaches⟩

/-- Nothing is wrong with the well-formed documents, and with no others. -/
theorem violations_eq_nil_iff {root : Node} : root.violations = [] ↔ root.WellFormed := by
  have hwhole : root.violations = [] ↔ (∃ styles, root = .mapping styles) ∧
      (∀ styles, root = .mapping styles → ∀ style ∈ styles, ∃ name, style.1.text? = some name) ∧
      ∀ definition, root.Defines definition → definition.IsDefinition := by
    cases root with
    | mapping styles =>
        simp only [violations, List.flatMap_eq_nil_iff, styleViolations_eq_nil_iff, Defines,
          Node.mapping.injEq, exists_eq', true_and, forall_eq']
        constructor
        · intro hstyles
          refine ⟨fun style hstyle => (hstyles style hstyle).1, ?_⟩
          rintro definition ⟨_, rfl, style, hstyle, hinherits⟩
          exact (hstyles style hstyle).2 definition hinherits
        · rintro ⟨hnames, hdefinitions⟩ style hstyle
          exact ⟨hnames style hstyle, fun definition hinherits =>
            hdefinitions definition ⟨styles, rfl, style, hstyle, hinherits⟩⟩
    | scalar value => simp [violations]
    | sequence items => simp [violations]
  rw [hwhole, forall_isDefinition_iff]
  constructor
  · rintro ⟨hroot, hstyles, hmappings, hnames, hvalues⟩
    exact ⟨hroot, hstyles, hmappings, hnames, hvalues⟩
  · rintro ⟨hroot, hstyles, hmappings, hnames, hvalues⟩
    exact ⟨hroot, hstyles, hmappings, hnames, hvalues⟩

/-- What is wrong with the value of an entry is wrong with a part that the value reaches. -/
theorem rule_mem_entryViolations {entry : Node × Node} {e : RuleError}
    (he : .rule e ∈ entryViolations entry) :
    entry.1.text? ≠ some mergeKey ∧ ∃ part, entry.2.Reaches part ∧ e ∈ part.ownViolations := by
  unfold entryViolations at he
  cases hname : entry.1.text? with
  | none => simp [hname] at he
  | some name =>
      by_cases hmerge : name = mergeKey
      · simp [hname, hmerge] at he
      · refine ⟨by simp [hmerge], (mem_valueViolations_iff entry.2).mp ?_⟩
        simpa [hname, hmerge] using he

/-- What is wrong with a rule of a style is wrong with a rule that the style inherits or has. -/
theorem rule_mem_styleViolations {style : Node × Node} {e : RuleError}
    (he : .rule e ∈ styleViolations style) :
    ∃ entries, style.2.Inherits (.mapping entries) ∧
      ∃ entry ∈ entries, .rule e ∈ entryViolations entry := by
  obtain ⟨key, node⟩ := style
  cases node with
  | scalar value => simp [styleViolations] at he
  | sequence items => simp [styleViolations] at he
  | mapping pairs =>
      cases hname : key.text? with
      | none => simp [styleViolations, hname] at he
      | some name =>
          simp only [styleViolations, hname] at he
          obtain ⟨base, hbase, he⟩ := (mem_definitionViolations_iff _).mp he
          cases base with
          | scalar value => simp [ownRuleViolations] at he
          | sequence items => simp [ownRuleViolations] at he
          | mapping entries => exact ⟨entries, hbase, List.mem_flatMap.mp he⟩

/-- What is wrong with a rule of a document is wrong with a value that the document holds. -/
theorem exists_holds_of_rule_mem_violations {root : Node} {e : RuleError}
    (he : .rule e ∈ root.violations) : ∃ value, root.Holds value ∧ e ∈ value.ownViolations := by
  cases root with
  | scalar value => simp [violations] at he
  | sequence items => simp [violations] at he
  | mapping styles =>
      obtain ⟨style, hstyle, he⟩ := List.mem_flatMap.mp he
      obtain ⟨entries, hinherits, entry, hentry, he⟩ := rule_mem_styleViolations he
      obtain ⟨hrule, value, hreaches, he⟩ := rule_mem_entryViolations he
      exact ⟨value, ⟨entries, ⟨styles, rfl, style, hstyle, hinherits⟩, entry, hentry, hrule,
        hreaches⟩, he⟩

/-- What is wrong with a scalar is the number of arguments of a literal. -/
theorem exists_argumentCount_of_mem_violations {value : Scalar} {e : RuleError}
    (he : e ∈ value.violations) : ∃ count, e = .argumentCount count := by
  cases value with
  | null | boolean b | number n => simp [Scalar.violations] at he
  | text s =>
      rw [Scalar.violations] at he
      by_cases hbody : (Literal.body? s).isSome = true
      · simp [hbody] at he
      · rw [if_neg hbody] at he
        obtain ⟨count, -, hcount⟩ := List.mem_map.mp he
        exact ⟨count, hcount.symm⟩

/-- A condition that cannot be written is a key that cannot be. -/
theorem exists_unshowable_of_mem_ownViolations {node : Node}
    (he : .unshowableCondition ∈ node.ownViolations) :
    ∃ pairs, node = .mapping pairs ∧ ∃ pair ∈ pairs, pair.1.isShowable = false := by
  cases node with
  | scalar value =>
      obtain ⟨count, hcount⟩ := exists_argumentCount_of_mem_violations he
      cases hcount
  | sequence items => simp [ownViolations] at he
  | mapping pairs =>
      obtain ⟨pair, hpair, he⟩ := List.mem_flatMap.mp he
      refine ⟨pairs, rfl, pair, hpair, ?_⟩
      unfold conditionViolations conditionError at he
      cases hshown : pair.1.isShowable
      · rfl
      · simp [hshown] at he

/-- Whether a document is well formed can be found out. -/
instance (root : Node) : Decidable root.WellFormed :=
  decidable_of_iff (root.violations.isEmpty = true)
    (List.isEmpty_iff.trans violations_eq_nil_iff)

end Node

end Stylesheet
