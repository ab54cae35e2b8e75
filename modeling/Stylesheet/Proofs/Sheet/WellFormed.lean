import Stylesheet.Sheet

/-!
# Well-formed documents

Which documents are sheets.  The conditions are on the parts of a document, wherever they are
reached from its root.
-/

namespace Stylesheet

/-- `node.Reaches part`: a node that is read as a rule's value is or holds another one that is read
so, through the values of branches. -/
inductive Node.Reaches : Node → Node → Prop where
  | self (node : Node) : Node.Reaches node node
  | branch {pairs : List (Node × Node)} {pair : Node × Node} {part : Node}
      (hpair : pair ∈ pairs) (hpart : Node.Reaches pair.2 part) :
      Node.Reaches (.mapping pairs) part

/-- `node.Inherits base`: a mapping of rules is or inherits from another node, through first merge
keys. -/
inductive Node.Inherits : Node → Node → Prop where
  | self (node : Node) : Node.Inherits node node
  | merge {pairs : List (Node × Node)} {node base : Node}
      (hmerge : (Node.mapping pairs).get? mergeKey = some node)
      (hbase : Node.Inherits node base) :
      Node.Inherits (.mapping pairs) base

namespace Node

theorem reaches_iff_eq {node part : Node} (hnode : ∀ pairs, node ≠ .mapping pairs) :
    node.Reaches part ↔ part = node := by
  constructor
  · intro hpart
    cases hpart with
    | self => rfl
    | branch => exact absurd rfl (hnode _)
  · rintro rfl
    exact .self _

theorem reaches_scalar_iff {value : Scalar} {part : Node} :
    (Node.scalar value).Reaches part ↔ part = .scalar value :=
  reaches_iff_eq nofun

theorem reaches_sequence_iff {items : List Node} {part : Node} :
    (Node.sequence items).Reaches part ↔ part = .sequence items :=
  reaches_iff_eq nofun

theorem reaches_mapping_iff {pairs : List (Node × Node)} {part : Node} :
    (Node.mapping pairs).Reaches part ↔
      part = .mapping pairs ∨ ∃ pair ∈ pairs, pair.2.Reaches part := by
  constructor
  · intro hpart
    cases hpart with
    | self => exact .inl rfl
    | branch hpair hpart => exact .inr ⟨_, hpair, hpart⟩
  · rintro (rfl | ⟨pair, hpair, hpart⟩)
    · exact .self _
    · exact .branch hpair hpart

theorem inherits_iff_eq {node base : Node} (hnode : ∀ pairs, node ≠ .mapping pairs) :
    node.Inherits base ↔ base = node := by
  constructor
  · intro hbase
    cases hbase with
    | self => rfl
    | merge => exact absurd rfl (hnode _)
  · rintro rfl
    exact .self _

theorem inherits_scalar_iff {value : Scalar} {base : Node} :
    (Node.scalar value).Inherits base ↔ base = .scalar value :=
  inherits_iff_eq nofun

theorem inherits_sequence_iff {items : List Node} {base : Node} :
    (Node.sequence items).Inherits base ↔ base = .sequence items :=
  inherits_iff_eq nofun

theorem inherits_mapping_iff {pairs : List (Node × Node)} {base : Node} :
    (Node.mapping pairs).Inherits base ↔
      base = .mapping pairs ∨
        ∃ node, (Node.mapping pairs).get? mergeKey = some node ∧ node.Inherits base := by
  constructor
  · intro hbase
    cases hbase with
    | self => exact .inl rfl
    | merge hmerge hbase => exact .inr ⟨_, hmerge, hbase⟩
  · rintro (rfl | ⟨node, hmerge, hbase⟩)
    · exact .self _
    · exact .merge hmerge hbase

theorem get?_mapping_cons (key node : Node) (rest : List (Node × Node)) (name : String) :
    (Node.mapping ((key, node) :: rest)).get? name =
      if key.text? = some name then some node else (Node.mapping rest).get? name := by
  by_cases hkey : key.text? = some name <;> simp [get?, hkey]

end Node

/-- The literals of a text have as many arguments as they need, unless it is an expression. -/
def Literal.WellCounted (text : String) : Prop :=
  body? text = none →
    (isCallOf fontMark text → (callArguments fontMark text).length = 2) ∧
    (isCallOf colorMark text → (callArguments colorMark text).length = 1)

namespace Node

/-- What a rule's value has to satisfy apart from its parts: the keys of a mapping are texts that
are expression literals, and the literals of a text are well counted. -/
def IsValue : Node → Prop
  | .scalar (.text s) => Literal.WellCounted s
  | .mapping pairs => ∀ pair ∈ pairs, ∃ source body,
      pair.1.text? = some source ∧ Literal.body? source = some body
  | _ => True

/-- A node that defines rules: the value of a style, or a node that it inherits from. -/
def Defines (root definition : Node) : Prop :=
  ∃ styles, root = .mapping styles ∧ ∃ style ∈ styles, style.2.Inherits definition

/-- A node that is read as the value of a rule or of a branch.  Merge keys are no rules. -/
def Holds (root value : Node) : Prop :=
  ∃ entries, root.Defines (.mapping entries) ∧
    ∃ entry ∈ entries, entry.1.text? ≠ some mergeKey ∧ entry.2.Reaches value

/-- The documents that are sheets. -/
structure WellFormed (root : Node) : Prop where
  rootMapping : ∃ styles, root = .mapping styles
  styleNames : ∀ styles, root = .mapping styles →
    ∀ style ∈ styles, ∃ name, style.1.text? = some name
  definitions : ∀ definition, root.Defines definition → ∃ entries, definition = .mapping entries
  ruleNames : ∀ entries, root.Defines (.mapping entries) →
    ∀ entry ∈ entries, ∃ name, entry.1.text? = some name
  values : ∀ value, root.Holds value → value.IsValue

end Node

end Stylesheet
