import Stylesheet.Proofs.Lists
import Stylesheet.Proofs.Rule.Kinds

/-!
# Parts of values

A value is made of parts: itself, the values of its branches, the values of theirs, and so on.
Every part is read from a node which the value's node reaches, and every such node is read as a
part.  So what is true of all that is read is true of all parts of a value.
-/

namespace Stylesheet

open Logged

theorem Node.condition?_eq_some_iff {key : Node} {source body : String} :
    key.condition? = some (source, body) ↔
      key.text? = some source ∧ Literal.body? source = some body := by
  simp only [condition?, Option.bind_eq_bind, Option.bind_eq_some_iff, Option.pure_def,
    Option.some.injEq, Prod.mk.injEq]
  constructor
  · rintro ⟨_, htext, _, hbody, rfl, rfl⟩
    exact ⟨htext, hbody⟩
  · rintro ⟨htext, hbody⟩
    exact ⟨source, htext, body, hbody, rfl, rfl⟩

/-- A branch is read from a pair of a mapping: it keeps the pair's key as it is written, and has
the compiled body of the key and the value of the pair. -/
structure Branch.ReadFrom (context : RuleContext) (pair : Node × Node) (branch : Branch Value) :
    Prop where
  source : pair.1.text? = some branch.source
  condition : ∃ body, Literal.body? branch.source = some body ∧
    branch.condition = Expression.compile body
  value : (Value.ofNode context pair.2).outcome = .ok branch.value

/-- `value.HasPart part`: a value is or holds another one, as the value of a branch at any depth. -/
inductive Value.HasPart : Value → Value → Prop where
  | self (value : Value) : Value.HasPart value value
  | branch {kind : Kind} {branches : List (Branch Value)} {branch : Branch Value} {part : Value}
      (hbranch : branch ∈ branches) (hpart : Value.HasPart branch.value part) :
      Value.HasPart (.conditional kind branches) part

/-- `value.HasExpression e`: a part of a value is an expression, or a branch of a part has it as its
condition. -/
inductive Value.HasExpression (value : Value) (e : Expression) : Prop where
  | value (hpart : value.HasPart (.expression e))
  | condition {kind : Kind} {branches : List (Branch Value)} {branch : Branch Value}
      (hpart : value.HasPart (.conditional kind branches)) (hbranch : branch ∈ branches)
      (hcondition : branch.condition = e)

namespace Value

variable {context : RuleContext}

/-- Pairs are read as branches one by one. -/
theorem branchesOfPairs_eq_ok_iff {pairs : List (Node × Node)} {branches : List (Branch Value)} :
    (branchesOfPairs context pairs).outcome = .ok branches ↔
      List.Forall₂ (Branch.ReadFrom context) pairs branches := by
  induction pairs generalizing branches with
  | nil =>
      rw [outcome_branchesOfPairs_nil, List.forall₂_nil_left_iff, Except.ok.injEq]
      exact eq_comm
  | cons pair rest ih =>
      obtain ⟨key, node⟩ := pair
      rw [branchesOfPairs_cons_eq_ok_iff]
      constructor
      · rintro ⟨source, body, value, others, hcondition, hvalue, hothers, rfl⟩
        obtain ⟨hsource, hbody⟩ := Node.condition?_eq_some_iff.mp hcondition
        exact .cons ⟨hsource, ⟨body, hbody, rfl⟩, hvalue⟩ (ih.mp hothers)
      · intro hbranches
        cases hbranches with
        | @cons _ branch _ others hbranch hothers =>
            obtain ⟨source, condition, value⟩ := branch
            obtain ⟨hsource, ⟨body, hbody, rfl⟩, hvalue⟩ := hbranch
            exact ⟨source, body, value, others, Node.condition?_eq_some_iff.mpr ⟨hsource, hbody⟩,
              hvalue, ih.mpr hothers, rfl⟩

/-- Mappings, and no other nodes, are read as conditional values. -/
theorem ofNode_eq_conditional_iff {node : Node} {kind : Kind} {stored : List (Branch Value)} :
    (ofNode context node).outcome = .ok (.conditional kind stored) ↔
      ∃ pairs written, node = .mapping pairs ∧
        List.Forall₂ (Branch.ReadFrom context) pairs written ∧
        kind = firstKind written ∧ stored = storageOrder written := by
  cases node with
  | scalar scalar =>
      constructor
      · intro hvalue
        rw [ofNode] at hvalue
        obtain ⟨⟨hplain, -⟩, -⟩ := RuleContext.parseScalar_spec hvalue
        cases hplain
      · rintro ⟨pairs, written, hnode, -⟩
        cases hnode
  | sequence items =>
      constructor
      · intro hvalue
        rw [ofNode] at hvalue
        cases hvalue
      · rintro ⟨pairs, written, hnode, -⟩
        cases hnode
  | mapping pairs =>
      simp only [ofNode_mapping_eq_ok_iff, branchesOfPairs_eq_ok_iff, Value.conditional.injEq,
        Node.mapping.injEq, exists_and_left, exists_eq_left']

/-- The branches of a conditional value, in whatever order, are read from the pairs of a mapping. -/
theorem exists_readFrom_of_mem {node : Node} {kind : Kind} {stored : List (Branch Value)}
    (hvalue : (ofNode context node).outcome = .ok (.conditional kind stored))
    {branch : Branch Value} (hbranch : branch ∈ stored) :
    ∃ pairs, node = .mapping pairs ∧ ∃ pair ∈ pairs, branch.ReadFrom context pair := by
  obtain ⟨pairs, written, rfl, hwritten, -, rfl⟩ := ofNode_eq_conditional_iff.mp hvalue
  exact ⟨pairs, rfl, exists_mem_of_forall₂ hwritten.flip (mem_storageOrder_iff.mp hbranch)⟩

/-- Every part of a value is read from a node which the value's node reaches. -/
theorem exists_reaches_of_hasPart {node : Node} {value part : Value}
    (hvalue : (ofNode context node).outcome = .ok value) (hpart : value.HasPart part) :
    ∃ inner, node.Reaches inner ∧ (ofNode context inner).outcome = .ok part := by
  induction hpart generalizing node with
  | self value => exact ⟨node, .self node, hvalue⟩
  | branch hbranch hpart ih =>
      obtain ⟨pairs, rfl, pair, hpair, hread⟩ := exists_readFrom_of_mem hvalue hbranch
      obtain ⟨inner, hreaches, hinner⟩ := ih hread.value
      exact ⟨inner, .branch hpair hreaches, hinner⟩

/-- Every node which a value's node reaches is read as a part of the value. -/
theorem exists_hasPart_of_reaches {node inner : Node} {value : Value}
    (hvalue : (ofNode context node).outcome = .ok value) (hreaches : node.Reaches inner) :
    ∃ part, value.HasPart part ∧ (ofNode context inner).outcome = .ok part := by
  induction hreaches generalizing value with
  | self node => exact ⟨value, .self value, hvalue⟩
  | branch hpair hreaches ih =>
      obtain ⟨written, hwritten, rfl⟩ := ofNode_mapping_eq_ok_iff.mp hvalue
      rw [branchesOfPairs_eq_ok_iff] at hwritten
      obtain ⟨branch, hbranch, hread⟩ := exists_mem_of_forall₂ hwritten hpair
      obtain ⟨part, hpart, hinner⟩ := ih hread.value
      exact ⟨part, .branch (mem_storageOrder_iff.mpr hbranch) hpart, hinner⟩

end Value

mutual

/-- The first leaf of a node, in the order in which the document is written. -/
def Node.firstLeaf : Node → Node
  | .scalar value => .scalar value
  | .sequence items => .sequence items
  | .mapping pairs => Node.firstLeafOfPairs pairs

/-- The first leaf of the value of the first pair.  A mapping without pairs is a leaf itself. -/
def Node.firstLeafOfPairs : List (Node × Node) → Node
  | [] => .mapping []
  | (_, node) :: _ => node.firstLeaf

end

namespace Node

mutual

theorem reaches_firstLeaf : ∀ node : Node, node.Reaches node.firstLeaf
  | .scalar value => by
      rw [firstLeaf]
      exact .self _
  | .sequence items => by
      rw [firstLeaf]
      exact .self _
  | .mapping pairs => by
      rw [firstLeaf]
      exact reaches_firstLeafOfPairs pairs

theorem reaches_firstLeafOfPairs :
    ∀ pairs : List (Node × Node), (Node.mapping pairs).Reaches (firstLeafOfPairs pairs)
  | [] => by
      rw [firstLeafOfPairs]
      exact .self _
  | (key, node) :: rest => by
      rw [firstLeafOfPairs]
      exact .branch List.mem_cons_self (reaches_firstLeaf node)

end

end Node

namespace Value

variable {context : RuleContext}

mutual

/-- A value has the kind of the first leaf of its node. -/
theorem leafKind?_firstLeaf :
    ∀ {node : Node} {value : Value}, (ofNode context node).outcome = .ok value →
      node.firstLeaf.leafKind? = some value.kind
  | .scalar scalar, value, hvalue => by
      rw [ofNode] at hvalue
      obtain ⟨⟨-, hkind⟩, -⟩ := RuleContext.parseScalar_spec hvalue
      rw [Node.firstLeaf, Node.leafKind?, hkind]
  | .sequence items, value, hvalue => by
      rw [ofNode] at hvalue
      cases hvalue
      rw [Node.firstLeaf]
      rfl
  | .mapping pairs, value, hvalue => by
      obtain ⟨written, hwritten, rfl⟩ := ofNode_mapping_eq_ok_iff.mp hvalue
      rw [Node.firstLeaf, kind]
      exact leafKind?_firstLeafOfPairs hwritten

theorem leafKind?_firstLeafOfPairs :
    ∀ {pairs : List (Node × Node)} {written : List (Branch Value)},
      (branchesOfPairs context pairs).outcome = .ok written →
        (Node.firstLeafOfPairs pairs).leafKind? = some (firstKind written)
  | [], written, hwritten => by
      rw [outcome_branchesOfPairs_nil] at hwritten
      cases hwritten
      rw [Node.firstLeafOfPairs]
      rfl
  | (key, node) :: rest, written, hwritten => by
      obtain ⟨source, body, first, others, -, hfirst, -, rfl⟩ :=
        branchesOfPairs_cons_eq_ok_iff.mp hwritten
      rw [Node.firstLeafOfPairs, leafKind?_firstLeaf hfirst]
      rfl

end

/-- The kinds of branches in the order in which they are written are those of the first leaves of
the pairs. -/
theorem map_leafKind?_firstLeaf {pairs : List (Node × Node)} {written : List (Branch Value)}
    (hwritten : List.Forall₂ (Branch.ReadFrom context) pairs written) :
    pairs.map (fun pair => pair.2.firstLeaf.leafKind?)
      = written.map fun branch => some branch.value.kind := by
  induction hwritten with
  | nil => rfl
  | cons hread hrest ih => rw [List.map_cons, List.map_cons, ih, leafKind?_firstLeaf hread.value]

end Value

theorem Rule.ofNode_eq_ok_iff {provider : Provider} {name : String} {node : Node} {rule : Rule} :
    (Rule.ofNode provider name node).outcome = .ok rule ↔
      rule.key = name ∧ (Value.ofNode ⟨provider, some name⟩ node).outcome = .ok rule.value := by
  rw [Rule.ofNode, outcome_bind_eq_ok_iff]
  constructor
  · rintro ⟨value, hvalue, hrule⟩
    cases hrule
    exact ⟨rfl, hvalue⟩
  · obtain ⟨key, value⟩ := rule
    rintro ⟨rfl, hvalue⟩
    exact ⟨value, hvalue, rfl⟩

end Stylesheet
