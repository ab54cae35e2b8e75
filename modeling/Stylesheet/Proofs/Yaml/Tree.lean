import Mathlib.Data.List.Forall2
import Mathlib.Logic.Relation
import Stylesheet.Yaml.Graph

/-!
# Trees of graphs

The tree of a node by plain recursion, without a memory of what is finished: a relation between
nodes and trees.  A node has at most one tree, and it has one unless something below it goes wrong;
then one error is the first in the order of the document.
-/

namespace Stylesheet.Yaml

/-- The parts of a node in the order in which they stand; keys are marked. -/
def GraphNode.parts : GraphNode → List (Bool × Nat)
  | scalar _ => []
  | sequence items => items.map fun item => (false, item)
  | mapping pairs => pairs.flatMap fun pair => [(true, pair.1), (false, pair.2)]

namespace Graph

variable (graph : Graph) (construct : Construction)

def parts (number : Nat) : List (Bool × Nat) :=
  match graph.nodes[number]? with
  | some node => node.parts
  | none => []

/-- A node stands inside another one, at any depth. -/
def Contains : Nat → Nat → Prop :=
  Relation.TransGen fun number part => ∃ isKey, (isKey, part) ∈ graph.parts number

/-- `graph.Occurs isKey root`: the nodes that the tree of the root shows, each as a key or not. -/
inductive Occurs (isKey : Bool) (root : Nat) : Bool → Nat → Prop where
  | root : Occurs isKey root isKey root
  | part {asKey partAsKey : Bool} {number part : Nat} (hwhole : Occurs isKey root asKey number)
      (hpart : (partAsKey, part) ∈ graph.parts number) : Occurs isKey root partAsKey part

/-- The scalar key that a node makes. -/
def key? (number : Nat) : Option Key :=
  match graph.nodes[number]? with
  | some (.scalar value) => match construct.convert true value with
    | .ok scalar => some ⟨number, scalar⟩
    | .error _ => none
  | _ => none

def keys (parts : List (Bool × Nat)) : List Key :=
  parts.filterMap fun part => if part.1 then graph.key? construct part.2 else none

/-- No scalar key among some parts is the same as an earlier one. -/
def DistinctKeys (parts : List (Bool × Nat)) : Prop :=
  (graph.keys construct parts).Pairwise fun earlier later => later.same earlier = false

/-- `graph.Unfolds construct isKey number tree`: the tree of a node by plain recursion. -/
inductive Unfolds : Bool → Nat → Node → Prop where
  | scalar {isKey : Bool} {number : Nat} {value : TaggedScalar} {scalar : Scalar}
      (hnode : graph.nodes[number]? = some (.scalar value))
      (hvalue : construct.convert isKey value = .ok scalar) :
      Unfolds isKey number (.scalar scalar)
  | sequence {isKey : Bool} {number : Nat} {items : List Nat} {nodes : List Node}
      (hnode : graph.nodes[number]? = some (.sequence items))
      (hlength : items.length = nodes.length)
      (hitems : ∀ {item node}, (item, node) ∈ items.zip nodes → Unfolds false item node) :
      Unfolds isKey number (.sequence nodes)
  | mapping {isKey : Bool} {number : Nat} {pairs : List (Nat × Nat)} {entries : List (Node × Node)}
      (hnode : graph.nodes[number]? = some (.mapping pairs))
      (hdistinct : graph.DistinctKeys construct (graph.parts number))
      (hlength : pairs.length = entries.length)
      (hkeys : ∀ {pair entry}, (pair, entry) ∈ pairs.zip entries → Unfolds true pair.1 entry.1)
      (hvalues : ∀ {pair entry}, (pair, entry) ∈ pairs.zip entries →
        Unfolds false pair.2 entry.2) :
      Unfolds isKey number (.mapping entries)

def HasTree (isKey : Bool) (number : Nat) : Prop :=
  ∃ tree, graph.Unfolds construct isKey number tree

/-- Nothing is wrong with the parts that stand first in a node. -/
structure Passed (before : List (Bool × Nat)) : Prop where
  trees : ∀ earlier ∈ before, graph.HasTree construct earlier.1 earlier.2
  distinct : graph.DistinctKeys construct before

/-- `graph.Faults construct inside isKey number e`: what goes wrong first when a node inside of
others is unfolded. -/
inductive Faults : List Nat → Bool → Nat → Error → Prop where
  | missing {inside : List Nat} {isKey : Bool} {number : Nat}
      (hnode : graph.nodes[number]? = none) : Faults inside isKey number (.fault .malformed)
  | scalar {inside : List Nat} {isKey : Bool} {number : Nat} {value : TaggedScalar} {e : Error}
      (hnode : graph.nodes[number]? = some (.scalar value))
      (hvalue : construct.convert isKey value = .error e) : Faults inside isKey number e
  | recursive {inside : List Nat} {isKey : Bool} {number : Nat} (hinside : number ∈ inside) :
      Faults inside isKey number .recursiveAlias
  | part {inside : List Nat} {isKey asKey : Bool} {number part : Nat}
      {before after : List (Bool × Nat)} {e : Error} (houtside : number ∉ inside)
      (hparts : graph.parts number = before ++ (asKey, part) :: after)
      (hbefore : graph.Passed construct before)
      (hpart : Faults (number :: inside) asKey part e) : Faults inside isKey number e
  | duplicate {inside : List Nat} {isKey : Bool} {number part : Nat}
      {before after : List (Bool × Nat)} {key earlier : Key} (houtside : number ∉ inside)
      (hparts : graph.parts number = before ++ (true, part) :: after)
      (hbefore : graph.Passed construct before)
      (hkey : graph.key? construct part = some key)
      (hearlier : earlier ∈ graph.keys construct before) (hsame : key.same earlier = true) :
      Faults inside isKey number (.duplicateKey key.scalar)

/-- Nothing that the tree of a node would show goes wrong. -/
structure Unfoldable (isKey : Bool) (root : Nat) : Prop where
  present : ∀ {asKey number}, graph.Occurs isKey root asKey number → graph.nodes[number]? ≠ none
  scalars : ∀ {asKey number value}, graph.Occurs isKey root asKey number →
    graph.nodes[number]? = some (.scalar value) →
      ∃ scalar, construct.convert asKey value = .ok scalar
  distinct : ∀ {asKey number}, graph.Occurs isKey root asKey number →
    graph.DistinctKeys construct (graph.parts number)
  acyclic : ∀ {asKey number}, graph.Occurs isKey root asKey number → ¬ graph.Contains number number

variable {graph construct} {isKey asKey : Bool} {number part : Nat} {tree : Node}

theorem parts_eq {node : GraphNode} (hnode : graph.nodes[number]? = some node) :
    graph.parts number = node.parts := by
  rw [parts, hnode]

theorem parts_of_none (hnode : graph.nodes[number]? = none) : graph.parts number = [] := by
  rw [parts, hnode]

theorem parts_of_scalar {value : TaggedScalar}
    (hnode : graph.nodes[number]? = some (.scalar value)) : graph.parts number = [] :=
  parts_eq hnode

theorem keys_singleton (number : Nat) :
    graph.keys construct [(true, number)] = (graph.key? construct number).toList := by
  cases hkey : graph.key? construct number <;> simp [keys, hkey]

theorem keys_append (before after : List (Bool × Nat)) :
    graph.keys construct (before ++ after)
      = graph.keys construct before ++ graph.keys construct after := by
  rw [keys, List.filterMap_append]
  rfl

theorem keys_concat_value (before : List (Bool × Nat)) (number : Nat) :
    graph.keys construct (before ++ [(false, number)]) = graph.keys construct before := by
  rw [keys_append]
  exact List.append_nil _

/-- A key that is the same as an earlier one is not distinct from it. -/
theorem not_distinctKeys {before after : List (Bool × Nat)} {key earlier : Key}
    (hkey : graph.key? construct part = some key) (hearlier : earlier ∈ graph.keys construct before)
    (hsame : key.same earlier = true) :
    ¬ graph.DistinctKeys construct (before ++ (true, part) :: after) := by
  intro hdistinct
  rw [DistinctKeys, keys_append, List.pairwise_append] at hdistinct
  have hmem : key ∈ graph.keys construct ((true, part) :: after) := by
    simp [keys, hkey]
  rw [hdistinct.2.2 earlier hearlier key hmem] at hsame
  cases hsame

/-- Two elements of a list are one, or one of them stands before the other. -/
theorem split_cases {α : Type} {a a' : α} {before after before' after' : List α}
    (hsplit : before ++ a :: after = before' ++ a' :: after') :
    (before = before' ∧ a = a' ∧ after = after') ∨ (∃ middle, before' = before ++ a :: middle) ∨
      ∃ middle, before = before' ++ a' :: middle := by
  rcases List.append_eq_append_iff.mp hsplit with
    ⟨middle, rfl, hmiddle⟩ | ⟨middle, rfl, hmiddle⟩
  · cases middle with
    | nil =>
        cases hmiddle
        exact .inl ⟨(List.append_nil _).symm, rfl, rfl⟩
    | cons first middle =>
        cases hmiddle
        exact .inr (.inl ⟨middle, rfl⟩)
  · cases middle with
    | nil =>
        cases hmiddle
        exact .inl ⟨List.append_nil _, rfl, rfl⟩
    | cons first middle =>
        cases hmiddle
        exact .inr (.inr ⟨middle, rfl⟩)

namespace Passed

variable {before : List (Bool × Nat)}

theorem nil : graph.Passed construct [] where
  trees := nofun
  distinct := List.Pairwise.nil

theorem of_append {after : List (Bool × Nat)} (hall : graph.Passed construct (before ++ after)) :
    graph.Passed construct before where
  trees := fun earlier hearlier => hall.trees earlier (List.mem_append_left _ hearlier)
  distinct := by
    have hdistinct := hall.distinct
    rw [DistinctKeys, keys_append, List.pairwise_append] at hdistinct
    exact hdistinct.1

/-- One part is the first with which something is wrong. -/
theorem first_unique {before' after after' : List (Bool × Nat)} {first first' : Bool × Nat}
    (hbefore : graph.Passed construct before) (hbefore' : graph.Passed construct before')
    (hfirst : ¬ graph.Passed construct (before ++ [first]))
    (hfirst' : ¬ graph.Passed construct (before' ++ [first']))
    (hsplit : before ++ first :: after = before' ++ first' :: after') :
    before = before' ∧ first = first' := by
  rcases split_cases hsplit with ⟨rfl, rfl, -⟩ | ⟨middle, rfl⟩ | ⟨middle, rfl⟩
  · exact ⟨rfl, rfl⟩
  · rw [List.append_cons] at hbefore'
    exact absurd hbefore'.of_append hfirst
  · rw [List.append_cons] at hbefore
    exact absurd hbefore.of_append hfirst'

theorem trees_concat (hbefore : graph.Passed construct before)
    (htree : graph.HasTree construct isKey part) :
    ∀ earlier ∈ before ++ [(isKey, part)], graph.HasTree construct earlier.1 earlier.2 := by
  intro earlier hearlier
  rcases List.mem_append.mp hearlier with hearlier | hearlier
  · exact hbefore.trees earlier hearlier
  · rw [List.mem_singleton.mp hearlier]
    exact htree

theorem value (hbefore : graph.Passed construct before)
    (htree : graph.HasTree construct false part) :
    graph.Passed construct (before ++ [(false, part)]) where
  trees := hbefore.trees_concat htree
  distinct := by
    rw [DistinctKeys, keys_concat_value]
    exact hbefore.distinct

theorem key (hbefore : graph.Passed construct before) (htree : graph.HasTree construct true part)
    (hnew : ∀ key, graph.key? construct part = some key →
      ∀ earlier ∈ graph.keys construct before, key.same earlier = false) :
    graph.Passed construct (before ++ [(true, part)]) where
  trees := hbefore.trees_concat htree
  distinct := by
    rw [DistinctKeys, keys_append, keys_singleton, List.pairwise_append]
    refine ⟨hbefore.distinct, ?_, ?_⟩
    · cases graph.key? construct part <;> simp
    · intro earlier hearlier key hkey
      exact hnew key (Option.mem_toList.mp hkey) earlier hearlier

end Passed

theorem not_passed_of_duplicate {before : List (Bool × Nat)} {key earlier : Key}
    (hkey : graph.key? construct part = some key) (hearlier : earlier ∈ graph.keys construct before)
    (hsame : key.same earlier = true) : ¬ graph.Passed construct (before ++ [(true, part)]) :=
  fun hpassed => not_distinctKeys hkey hearlier hsame hpassed.distinct

namespace Unfolds

theorem ofItems {items : List Nat} {nodes : List Node}
    (hnode : graph.nodes[number]? = some (.sequence items))
    (hitems : List.Forall₂ (graph.Unfolds construct false) items nodes) :
    graph.Unfolds construct isKey number (.sequence nodes) := by
  obtain ⟨hlength, hzip⟩ := List.forall₂_iff_zip.mp hitems
  exact .sequence hnode hlength hzip

theorem ofPairs {pairs : List (Nat × Nat)} {entries : List (Node × Node)}
    (hnode : graph.nodes[number]? = some (.mapping pairs))
    (hdistinct : graph.DistinctKeys construct (graph.parts number))
    (hpairs : List.Forall₂ (fun pair entry => graph.Unfolds construct true pair.1 entry.1 ∧
      graph.Unfolds construct false pair.2 entry.2) pairs entries) :
    graph.Unfolds construct isKey number (.mapping entries) := by
  obtain ⟨hlength, hzip⟩ := List.forall₂_iff_zip.mp hpairs
  exact .mapping hnode hdistinct hlength (fun hpair => (hzip hpair).1) fun hpair => (hzip hpair).2

theorem getElem_mem_zip {α β : Type} {as : List α} {bs : List β} {i : Nat} (ha : i < as.length)
    (hb : i < bs.length) : (as[i], bs[i]) ∈ as.zip bs := by
  have hzip : i < (as.zip bs).length := by
    rw [List.length_zip]
    omega
  exact List.mem_iff_getElem.mpr ⟨i, hzip, List.getElem_zip⟩

/-- A list is determined by one of as many elements when each element is. -/
theorem eq_of_zip {α β : Type} {as : List α} {bs bs' : List β} (hlength : as.length = bs.length)
    (hlength' : as.length = bs'.length)
    (hunique : ∀ a b b', (a, b) ∈ as.zip bs → (a, b') ∈ as.zip bs' → b' = b) : bs' = bs := by
  apply List.ext_getElem (hlength'.symm.trans hlength)
  intro i hi' hi
  have ha : i < as.length := hlength ▸ hi
  exact hunique as[i] _ _ (getElem_mem_zip ha hi) (getElem_mem_zip ha hi')

/-- A node has one tree. -/
theorem unique {tree' : Node} (htree : graph.Unfolds construct isKey number tree)
    (htree' : graph.Unfolds construct isKey number tree') : tree' = tree := by
  induction htree generalizing tree' with
  | scalar hnode hvalue =>
      cases htree' with
      | scalar hnode' hvalue' =>
          cases hnode.symm.trans hnode'
          cases hvalue.symm.trans hvalue'
          rfl
      | sequence hnode' | mapping hnode' => cases hnode.symm.trans hnode'
  | sequence hnode hlength hitems ih =>
      cases htree' with
      | sequence hnode' hlength' hitems' =>
          cases hnode.symm.trans hnode'
          congr 1
          apply eq_of_zip hlength hlength'
          intro item node node' hitem hitem'
          exact ih hitem (hitems' hitem')
      | scalar hnode' | mapping hnode' => cases hnode.symm.trans hnode'
  | mapping hnode hdistinct hlength hkeys hvalues ihkeys ihvalues =>
      cases htree' with
      | mapping hnode' hdistinct' hlength' hkeys' hvalues' =>
          cases hnode.symm.trans hnode'
          congr 1
          apply eq_of_zip hlength hlength'
          intro pair entry entry' hpair hpair'
          exact Prod.ext (ihkeys hpair (hkeys' hpair')) (ihvalues hpair (hvalues' hpair'))
      | scalar hnode' | sequence hnode' => cases hnode.symm.trans hnode'

/-- Being a key matters for scalars alone. -/
theorem of_collection {isKey' : Bool} {node : GraphNode}
    (htree : graph.Unfolds construct isKey number tree)
    (hnode : graph.nodes[number]? = some node) (hcollection : ∀ value, node ≠ .scalar value) :
    graph.Unfolds construct isKey' number tree := by
  cases htree with
  | scalar hscalar =>
      cases hnode.symm.trans hscalar
      exact absurd rfl (hcollection _)
  | sequence hnode hlength hitems => exact .sequence hnode hlength hitems
  | mapping hnode hdistinct hlength hkeys hvalues =>
      exact .mapping hnode hdistinct hlength hkeys hvalues

theorem of_parts {isKey' : Bool} (htree : graph.Unfolds construct isKey number tree)
    (hpart : (asKey, part) ∈ graph.parts number) :
    graph.Unfolds construct isKey' number tree := by
  cases hnode : graph.nodes[number]? with
  | none => simp [parts_of_none hnode] at hpart
  | some node =>
      apply htree.of_collection hnode
      rintro value rfl
      simp [parts_of_scalar hnode] at hpart

theorem exists_mem_zip {α β : Type} {as : List α} {bs : List β} {a : α}
    (hlength : as.length = bs.length) (ha : a ∈ as) : ∃ b ∈ bs, (a, b) ∈ as.zip bs := by
  obtain ⟨i, hi, rfl⟩ := List.mem_iff_getElem.mp ha
  have hb : i < bs.length := hlength ▸ hi
  exact ⟨bs[i], List.getElem_mem hb, getElem_mem_zip hi hb⟩

/-- The parts of a node with a tree have smaller trees. -/
theorem exists_part (htree : graph.Unfolds construct isKey number tree)
    (hpart : (asKey, part) ∈ graph.parts number) :
    ∃ smaller, graph.Unfolds construct asKey part smaller ∧ sizeOf smaller < sizeOf tree := by
  cases htree with
  | scalar hnode hvalue =>
      rw [parts_eq hnode] at hpart
      cases hpart
  | sequence hnode hlength hitems =>
      rw [parts_eq hnode, GraphNode.parts, List.mem_map] at hpart
      obtain ⟨item, hitem, hpair⟩ := hpart
      cases hpair
      obtain ⟨node, hnode, hzip⟩ := exists_mem_zip hlength hitem
      have hsmaller := List.sizeOf_lt_of_mem hnode
      refine ⟨node, hitems hzip, ?_⟩
      rw [Node.sequence.sizeOf_spec]
      omega
  | mapping hnode hdistinct hlength hkeys hvalues =>
      rw [parts_eq hnode, GraphNode.parts, List.mem_flatMap] at hpart
      obtain ⟨pair, hpair, hpart⟩ := hpart
      obtain ⟨⟨key, value⟩, hentry, hzip⟩ := exists_mem_zip hlength hpair
      have hsmaller := List.sizeOf_lt_of_mem hentry
      rw [Prod.mk.sizeOf_spec] at hsmaller
      rw [Node.mapping.sizeOf_spec]
      rcases List.mem_pair.mp hpart with hpart | hpart
      · cases hpart
        refine ⟨key, hkeys hzip, ?_⟩
        omega
      · cases hpart
        refine ⟨value, hvalues hzip, ?_⟩
        omega

theorem exists_of_contains (htree : graph.Unfolds construct isKey number tree)
    (hcontains : graph.Contains number part) :
    ∃ asKey smaller, graph.Unfolds construct asKey part smaller ∧ sizeOf smaller < sizeOf tree := by
  induction hcontains with
  | single hpart =>
      obtain ⟨asKey, hpart⟩ := hpart
      exact ⟨asKey, htree.exists_part hpart⟩
  | tail _ hpart ih =>
      obtain ⟨_, smaller, hsmaller, hlt⟩ := ih
      obtain ⟨asKey, hpart⟩ := hpart
      obtain ⟨smallest, hsmallest, hlt'⟩ := hsmaller.exists_part hpart
      exact ⟨asKey, smallest, hsmallest, Nat.lt_trans hlt' hlt⟩

/-- A node with a tree does not contain itself: its tree would be smaller than itself. -/
theorem not_contains_self (htree : graph.Unfolds construct isKey number tree) :
    ¬ graph.Contains number number := by
  intro hcontains
  obtain ⟨asKey, smaller, hsmaller, hlt⟩ := htree.exists_of_contains hcontains
  obtain ⟨part, ⟨partAsKey, hpart⟩, -⟩ := Relation.TransGen.head'_iff.mp hcontains
  rw [htree.unique (hsmaller.of_parts hpart)] at hlt
  exact Nat.lt_irrefl _ hlt

theorem occurs {root : Nat} (htree : graph.Unfolds construct isKey root tree)
    (hoccurs : graph.Occurs isKey root asKey number) :
    graph.HasTree construct asKey number := by
  induction hoccurs with
  | root => exact ⟨tree, htree⟩
  | part _ hpart ih =>
      obtain ⟨whole, hwhole⟩ := ih
      obtain ⟨smaller, hsmaller, -⟩ := hwhole.exists_part hpart
      exact ⟨smaller, hsmaller⟩

/-- Nothing goes wrong in a tree. -/
theorem unfoldable {root : Nat} (htree : graph.Unfolds construct isKey root tree) :
    graph.Unfoldable construct isKey root where
  present := by
    intro asKey number hoccurs hnone
    obtain ⟨part, hpart⟩ := htree.occurs hoccurs
    cases hpart with
    | scalar hnode | sequence hnode | mapping hnode => cases hnone.symm.trans hnode
  scalars := by
    intro asKey number value hoccurs hvalue
    obtain ⟨part, hpart⟩ := htree.occurs hoccurs
    cases hpart with
    | scalar hnode hscalar =>
        cases hvalue.symm.trans hnode
        exact ⟨_, hscalar⟩
    | sequence hnode | mapping hnode => cases hvalue.symm.trans hnode
  distinct := by
    intro asKey number hoccurs
    obtain ⟨part, hpart⟩ := htree.occurs hoccurs
    cases hpart with
    | mapping hnode hdistinct => exact hdistinct
    | scalar hnode =>
        rw [parts_eq hnode]
        exact List.Pairwise.nil
    | sequence hnode =>
        rw [parts_eq hnode]
        simp [DistinctKeys, keys, GraphNode.parts, List.filterMap_map]
  acyclic := by
    intro asKey number hoccurs
    obtain ⟨part, hpart⟩ := htree.occurs hoccurs
    exact hpart.not_contains_self

end Unfolds

theorem Occurs.trans {root : Nat} {midAsKey : Bool} {middle : Nat}
    (hmiddle : graph.Occurs isKey root midAsKey middle)
    (hoccurs : graph.Occurs midAsKey middle asKey number) :
    graph.Occurs isKey root asKey number := by
  induction hoccurs with
  | root => exact hmiddle
  | part _ hpart ih => exact .part ih hpart

/-- What can be unfolded stays so further inside. -/
theorem Unfoldable.inner (hunfoldable : graph.Unfoldable construct isKey number)
    (hpart : (asKey, part) ∈ graph.parts number) : graph.Unfoldable construct asKey part := by
  have htrans {asKey' : Bool} {number' : Nat} (hoccurs : graph.Occurs asKey part asKey' number') :
      graph.Occurs isKey number asKey' number' :=
    (Occurs.part .root hpart).trans hoccurs
  exact ⟨fun hoccurs => hunfoldable.present (htrans hoccurs),
    fun hoccurs => hunfoldable.scalars (htrans hoccurs),
    fun hoccurs => hunfoldable.distinct (htrans hoccurs),
    fun hoccurs => hunfoldable.acyclic (htrans hoccurs)⟩

/-- All of some nodes contain a node. -/
def Around (graph : Graph) (inside : List Nat) (number : Nat) : Prop :=
  ∀ outer ∈ inside, graph.Contains outer number

theorem Around.inner {inside : List Nat} (haround : graph.Around inside number)
    (hpart : (asKey, part) ∈ graph.parts number) : graph.Around (number :: inside) part := by
  intro outer houter
  rcases List.mem_cons.mp houter with rfl | houter
  · exact .single ⟨asKey, hpart⟩
  · exact (haround outer houter).tail ⟨asKey, hpart⟩

theorem Around.parts_ne_nil {inside : List Nat} (haround : graph.Around inside number)
    (hinside : number ∈ inside) : graph.parts number ≠ [] := by
  obtain ⟨part, ⟨asKey, hpart⟩, -⟩ := Relation.TransGen.head'_iff.mp (haround number hinside)
  exact List.ne_nil_of_mem hpart

/-- A node is a scalar key when it has a scalar as its tree. -/
theorem key?_eq_some_iff {key : Key} :
    graph.key? construct number = some key ↔
      key.number = number ∧ graph.Unfolds construct true number (.scalar key.scalar) := by
  obtain ⟨own, scalar⟩ := key
  constructor
  · intro hkey
    unfold key? at hkey
    split at hkey
    · next value hnode =>
        split at hkey
        · next hscalar =>
            cases hkey
            exact ⟨rfl, .scalar hnode hscalar⟩
        · cases hkey
    · cases hkey
  · rintro ⟨rfl, htree⟩
    cases htree with
    | scalar hnode hvalue => simp only [key?, hnode, hvalue]

namespace Faults

variable {inside : List Nat} {e : Error}

/-- Something goes wrong only in what cannot be unfolded. -/
theorem not_unfoldable (hfault : graph.Faults construct inside isKey number e)
    (haround : graph.Around inside number) : ¬ graph.Unfoldable construct isKey number := by
  induction hfault with
  | missing hnode => exact fun hunfoldable => hunfoldable.present .root hnode
  | scalar hnode hvalue =>
      intro hunfoldable
      obtain ⟨scalar, hscalar⟩ := hunfoldable.scalars .root hnode
      cases hvalue.symm.trans hscalar
  | recursive hinside => exact fun hunfoldable => hunfoldable.acyclic .root (haround _ hinside)
  | part houtside hparts hbefore hpart ih =>
      intro hunfoldable
      have hmem := hparts ▸ List.mem_append_cons_self
      exact ih (haround.inner hmem) (hunfoldable.inner hmem)
  | duplicate houtside hparts hbefore hkey hearlier hsame =>
      intro hunfoldable
      exact not_distinctKeys hkey hearlier hsame (hparts ▸ hunfoldable.distinct .root)

theorem not_hasTree (hfault : graph.Faults construct inside isKey number e)
    (haround : graph.Around inside number) : ¬ graph.HasTree construct isKey number := by
  rintro ⟨tree, htree⟩
  exact hfault.not_unfoldable haround htree.unfoldable

/-- Parts do not pass with one in which something goes wrong. -/
theorem not_passed {before : List (Bool × Nat)}
    (hfault : graph.Faults construct inside isKey number e)
    (haround : graph.Around inside number) :
    ¬ graph.Passed construct (before ++ [(isKey, number)]) := by
  intro hpassed
  exact hfault.not_hasTree haround (hpassed.trees _ List.mem_concat_self)

/-- One error is the first. -/
theorem unique {e' : Error} (hfault : graph.Faults construct inside isKey number e)
    (hfault' : graph.Faults construct inside isKey number e')
    (haround : graph.Around inside number) : e' = e := by
  induction hfault generalizing e' with
  | missing hnode =>
      have hnil := parts_of_none hnode
      cases hfault' with
      | missing => rfl
      | scalar hnode' => cases hnode.symm.trans hnode'
      | recursive hinside => exact absurd hnil (haround.parts_ne_nil hinside)
      | part _ hparts | duplicate _ hparts => simp [hparts] at hnil
  | scalar hnode hvalue =>
      have hnil := parts_of_scalar hnode
      cases hfault' with
      | missing hnode' => cases hnode.symm.trans hnode'
      | scalar hnode' hvalue' =>
          cases hnode.symm.trans hnode'
          cases hvalue.symm.trans hvalue'
          rfl
      | recursive hinside => exact absurd hnil (haround.parts_ne_nil hinside)
      | part _ hparts | duplicate _ hparts => simp [hparts] at hnil
  | recursive hinside =>
      cases hfault' with
      | missing hnode => exact absurd (parts_of_none hnode) (haround.parts_ne_nil hinside)
      | scalar hnode => exact absurd (parts_of_scalar hnode) (haround.parts_ne_nil hinside)
      | recursive => rfl
      | part houtside | duplicate houtside => exact absurd hinside houtside
  | part houtside hparts hbefore hpart ih =>
      -- either fault stops at the first part that does not pass, so both stop at the same one
      have haround' := haround.inner (hparts ▸ List.mem_append_cons_self)
      cases hfault' with
      | missing hnode => simp [parts_of_none hnode] at hparts
      | scalar hnode => simp [parts_of_scalar hnode] at hparts
      | recursive hinside => exact absurd hinside houtside
      | part _ hparts' hbefore' hpart' =>
          have hother := haround.inner (hparts' ▸ List.mem_append_cons_self)
          obtain ⟨rfl, hsame⟩ := hbefore.first_unique hbefore' (hpart.not_passed haround')
            (hpart'.not_passed hother) (hparts.symm.trans hparts')
          cases hsame
          exact ih hpart' haround'
      | duplicate _ hparts' hbefore' hkey hearlier hsame =>
          obtain ⟨rfl, hpair⟩ := hbefore.first_unique hbefore' (hpart.not_passed haround')
            (not_passed_of_duplicate hkey hearlier hsame) (hparts.symm.trans hparts')
          cases hpair
          exact absurd ⟨_, (key?_eq_some_iff.mp hkey).2⟩ (hpart.not_hasTree haround')
  | duplicate houtside hparts hbefore hkey hearlier hsame =>
      have hstops := not_passed_of_duplicate hkey hearlier hsame
      cases hfault' with
      | missing hnode => simp [parts_of_none hnode] at hparts
      | scalar hnode => simp [parts_of_scalar hnode] at hparts
      | recursive hinside => exact absurd hinside houtside
      | part _ hparts' hbefore' hpart' =>
          have haround' := haround.inner (hparts' ▸ List.mem_append_cons_self)
          obtain ⟨rfl, hpair⟩ := hbefore.first_unique hbefore' hstops (hpart'.not_passed haround')
            (hparts.symm.trans hparts')
          cases hpair
          exact absurd ⟨_, (key?_eq_some_iff.mp hkey).2⟩ (hpart'.not_hasTree haround')
      | duplicate _ hparts' hbefore' hkey' hearlier' hsame' =>
          obtain ⟨rfl, hpair⟩ := hbefore.first_unique hbefore' hstops
            (not_passed_of_duplicate hkey' hearlier' hsame') (hparts.symm.trans hparts')
          cases hpair
          cases hkey.symm.trans hkey'
          rfl

end Faults

end Graph

end Stylesheet.Yaml
