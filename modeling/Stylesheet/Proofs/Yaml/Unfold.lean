import Mathlib.Data.List.Perm.Subperm
import Stylesheet.Proofs.Yaml.Tree

/-!
# Unfolding of graphs

Unfolding with a memory of what is finished gives what plain recursion gives.  The invariant is that
the trees that are remembered are the trees of their nodes; the fuel lasts because the collections
that a node is inside of are different nodes.
-/

namespace Stylesheet.Yaml.Graph

variable {graph : Graph} {construct : Construction}

/-- The trees that are remembered are those of their nodes. -/
def Remembers (graph : Graph) (construct : Construction) (finished : Finished) : Prop :=
  ∀ number tree, finished.lookup number = some tree → graph.Unfolds construct false number tree

theorem Remembers.cons {finished : Finished} {number : Nat} {tree : Node}
    (hfinished : graph.Remembers construct finished)
    (htree : graph.Unfolds construct false number tree) :
    graph.Remembers construct ((number, tree) :: finished) := by
  intro number' tree' hlookup
  by_cases hnumber : number' = number
  · subst hnumber
    rw [List.lookup_cons_self] at hlookup
    cases hlookup
    exact htree
  · have hother : (number' == number) = false := by simpa using hnumber
    rw [List.lookup_cons, hother] at hlookup
    exact hfinished number' tree' hlookup

/-- A step of unfolding settles what it is about: its result is right and what it remembers is
right, or its error is. -/
inductive Settles (graph : Graph) (construct : Construction) {α : Type} (P : α → Prop)
    (Q : Error → Prop) : Except Error (α × Finished) → Prop where
  | ok {a : α} {finished : Finished} (hresult : P a)
      (hfinished : graph.Remembers construct finished) :
      Settles graph construct P Q (.ok (a, finished))
  | error {e : Error} (hfault : Q e) : Settles graph construct P Q (.error e)

namespace Settles

variable {α β : Type} {P : α → Prop} {P' : β → Prop} {Q Q' : Error → Prop}
  {x : Except Error (α × Finished)}

/-- Steps settle in sequence: the second starts from what the first remembers. -/
theorem bind {f : α × Finished → Except Error (β × Finished)} (hx : Settles graph construct P Q x)
    (hfault : ∀ e, Q e → Q' e)
    (hf : ∀ a finished, P a → graph.Remembers construct finished →
      Settles graph construct P' Q' (f (a, finished))) :
    Settles graph construct P' Q' (x >>= f) := by
  cases hx with
  | ok ha hfinished => exact hf _ _ ha hfinished
  | error he => exact .error (hfault _ he)

end Settles

/-- All steps for the parts of a node settle their trees. -/
def SettlesParts (graph : Graph) (construct : Construction) (inside : List Nat) (isKey : Bool)
    (unfold : Nat → Unfolding Node) : Prop :=
  ∀ part finished, graph.Remembers construct finished →
    Settles graph construct (graph.Unfolds construct isKey part)
      (graph.Faults construct inside isKey part) (unfold part finished)

section Parts

variable {inside : List Nat} {isKey : Bool} {number : Nat}

/-- The items of a sequence unfold to their trees, or the first fault among them is found. -/
theorem unfoldItems_settles {unfold : Nat → Unfolding Node} (houtside : number ∉ inside)
    (hunfold : SettlesParts graph construct (number :: inside) false unfold)
    {before : List (Bool × Nat)} {items : List Nat} {finished : Finished}
    (hparts : graph.parts number = before ++ items.map fun item => (false, item))
    (hbefore : graph.Passed construct before) (hfinished : graph.Remembers construct finished) :
    Settles graph construct (List.Forall₂ (graph.Unfolds construct false) items)
      (graph.Faults construct inside isKey number) (unfoldItems unfold items finished) := by
  induction items generalizing before finished with
  | nil => exact .ok .nil hfinished
  | cons item rest ih =>
      rw [List.map_cons] at hparts
      apply (hunfold item finished hfinished).bind
      · intro e hfault
        exact .part houtside hparts hbefore hfault
      · intro node finished hnode hfinished
        rw [List.append_cons] at hparts
        apply (ih hparts (hbefore.value ⟨node, hnode⟩) hfinished).bind
        · exact fun e hfault => hfault
        · intro nodes finished hnodes hfinished
          exact .ok (.cons hnode hnodes) hfinished

/-- A key is added to the keys before it, unless it is the same as one of them. -/
theorem addKey_cases (before : List (Bool × Nat)) {part : Nat} {tree : Node}
    (htree : graph.Unfolds construct true part tree) :
    (addKey (graph.keys construct before).reverse part tree
        = .ok (graph.keys construct (before ++ [(true, part)])).reverse ∧
      ∀ key, graph.key? construct part = some key →
        ∀ earlier ∈ graph.keys construct before, key.same earlier = false) ∨
    ∃ key earlier, graph.key? construct part = some key ∧
      earlier ∈ graph.keys construct before ∧ key.same earlier = true ∧
      addKey (graph.keys construct before).reverse part tree
        = .error (.duplicateKey key.scalar) := by
  rw [keys_append, keys_singleton]
  cases tree with
  | scalar scalar =>
      have hkey : graph.key? construct part = some ⟨part, scalar⟩ :=
        key?_eq_some_iff.mpr ⟨rfl, htree⟩
      rw [addKey, List.any_reverse]
      by_cases hseen : (graph.keys construct before).any (Key.same ⟨part, scalar⟩) = true
      · obtain ⟨earlier, hearlier, hsame⟩ := List.any_eq_true.mp hseen
        exact .inr ⟨_, earlier, hkey, hearlier, hsame, if_pos hseen⟩
      · refine .inl ⟨?_, ?_⟩
        · rw [if_neg hseen, hkey, List.reverse_append]
          rfl
        · intro key hsome earlier hearlier
          cases hkey.symm.trans hsome
          rw [Bool.not_eq_true, List.any_eq_false] at hseen
          exact Bool.eq_false_iff.mpr (hseen earlier hearlier)
  | sequence | mapping =>
      have hkey : graph.key? construct part = none := by
        rw [Option.eq_none_iff_forall_not_mem]
        intro key hkey
        cases htree.unique (key?_eq_some_iff.mp hkey).2
      refine .inl ⟨?_, ?_⟩
      · rw [addKey, hkey, Option.toList_none, List.append_nil]
        nofun
      · simp [hkey]

/-- The pairs of a mapping unfold to those of their trees, or the first fault among them is
found. -/
theorem unfoldPairs_settles {unfoldKey unfold : Nat → Unfolding Node} (houtside : number ∉ inside)
    (hunfoldKey : SettlesParts graph construct (number :: inside) true unfoldKey)
    (hunfold : SettlesParts graph construct (number :: inside) false unfold)
    {before : List (Bool × Nat)} {pairs : List (Nat × Nat)} {finished : Finished}
    (hparts : graph.parts number
      = before ++ pairs.flatMap fun pair => [(true, pair.1), (false, pair.2)])
    (hbefore : graph.Passed construct before) (hfinished : graph.Remembers construct finished) :
    Settles graph construct
      (fun entries => graph.DistinctKeys construct (graph.parts number) ∧
        List.Forall₂ (fun pair entry => graph.Unfolds construct true pair.1 entry.1 ∧
          graph.Unfolds construct false pair.2 entry.2) pairs entries)
      (graph.Faults construct inside isKey number)
      (unfoldPairs unfoldKey unfold (graph.keys construct before).reverse pairs finished) := by
  induction pairs generalizing before finished with
  | nil =>
      rw [List.flatMap_nil, List.append_nil] at hparts
      exact .ok ⟨hparts ▸ hbefore.distinct, .nil⟩ hfinished
  | cons pair rest ih =>
      obtain ⟨key, value⟩ := pair
      simp only [List.flatMap_cons, List.cons_append, List.nil_append] at hparts
      apply (hunfoldKey key finished hfinished).bind
      · intro e hfault
        exact .part houtside hparts hbefore hfault
      · intro keyNode finished hkeyNode hfinished
        dsimp only
        rcases addKey_cases before hkeyNode with
          ⟨hadded, hnew⟩ | ⟨added, earlier, hadded, hearlier, hsame, hduplicate⟩
        · rw [hadded]
          rw [List.append_cons] at hparts
          have hkey := hbefore.key ⟨keyNode, hkeyNode⟩ hnew
          apply (hunfold value finished hfinished).bind
          · intro e hfault
            exact .part houtside hparts hkey hfault
          · intro node finished hnode hfinished
            rw [List.append_cons] at hparts
            rw [← keys_concat_value _ value]
            apply (ih hparts (hkey.value ⟨node, hnode⟩) hfinished).bind
            · exact fun e hfault => hfault
            · intro entries finished hentries hfinished
              exact .ok ⟨hentries.1, .cons ⟨hkeyNode, hnode⟩ hentries.2⟩ hfinished
        · rw [hduplicate]
          exact .error (.duplicate houtside hparts hbefore hadded hearlier hsame)

/-- A collection that is neither finished nor around itself unfolds as its parts do. -/
theorem unfoldOnce_settles {unfold : Unfolding Node} {finished : Finished} {node : GraphNode}
    (hnode : graph.nodes[number]? = some node) (hcollection : ∀ value, node ≠ .scalar value)
    (hfinished : graph.Remembers construct finished)
    (hunfold : number ∉ inside → Settles graph construct (graph.Unfolds construct isKey number)
      (graph.Faults construct inside isKey number) (unfold finished)) :
    Settles graph construct (graph.Unfolds construct isKey number)
      (graph.Faults construct inside isKey number)
      (unfoldOnce number inside unfold finished) := by
  rw [unfoldOnce]
  cases hlookup : finished.lookup number with
  | some tree =>
      exact .ok ((hfinished number tree hlookup).of_collection hnode hcollection) hfinished
  | none =>
      by_cases hinside : number ∈ inside
      · simp only [List.contains_iff_mem, hinside, if_true]
        exact .error (.recursive hinside)
      · simp only [List.contains_iff_mem, hinside, if_false]
        apply (hunfold hinside).bind
        · exact fun e hfault => hfault
        · intro tree finished htree hfinished
          exact .ok htree (hfinished.cons (htree.of_collection hnode hcollection))

end Parts

/-- Different nodes are at most as many as there are. -/
theorem length_le_size {inside : List Nat} (hnodup : inside.Nodup)
    (hinside : ∀ outer ∈ inside, outer < graph.nodes.size) :
    inside.length ≤ graph.nodes.size := by
  have hsubset : inside ⊆ List.range graph.nodes.size := by
    intro outer houter
    exact List.mem_range.mpr (hinside outer houter)
  simpa using (List.subperm_of_subset hnodup hsubset).length_le

/-- Unfolding gives the tree of a node or finds its first fault, with any fuel that lasts for all
nodes that the node is not inside of. -/
theorem unfoldWithin_settles {fuel : Nat} {inside : List Nat} {isKey : Bool} {number : Nat}
    {finished : Finished} (hfuel : graph.nodes.size < fuel + inside.length)
    (hnodup : inside.Nodup) (hinside : ∀ outer ∈ inside, outer < graph.nodes.size)
    (hfinished : graph.Remembers construct finished) :
    Settles graph construct (graph.Unfolds construct isKey number)
      (graph.Faults construct inside isKey number)
      (graph.unfoldWithin construct fuel inside isKey number finished) := by
  induction fuel generalizing inside isKey number finished with
  | zero =>
      -- the collections around a node are different, so they would be more than there are
      have hlength := length_le_size hnodup hinside
      omega
  | succ fuel ih =>
      have hparts (houtside : number ∉ inside) (hnumber : number < graph.nodes.size)
          (isKey : Bool) : SettlesParts graph construct (number :: inside) isKey
            (graph.unfoldWithin construct fuel (number :: inside) isKey) := by
        intro part finished hfinished
        apply ih _ (List.nodup_cons.mpr ⟨houtside, hnodup⟩) _ hfinished
        · rw [List.length_cons]
          omega
        · intro outer houter
          rcases List.mem_cons.mp houter with rfl | houter
          · exact hnumber
          · exact hinside outer houter
      rw [unfoldWithin]
      cases hnode : graph.nodes[number]? with
      | none => exact .error (.missing hnode)
      | some node =>
          obtain ⟨hnumber, -⟩ := Array.getElem?_eq_some_iff.mp hnode
          cases node with
          | scalar value =>
              dsimp only
              cases hvalue : construct.convert isKey value with
              | error e => exact .error (.scalar hnode hvalue)
              | ok scalar => exact .ok (.scalar hnode hvalue) hfinished
          | sequence items =>
              apply unfoldOnce_settles hnode nofun hfinished
              intro houtside
              apply (unfoldItems_settles houtside (hparts houtside hnumber false) (parts_eq hnode)
                .nil hfinished).bind
              · exact fun e hfault => hfault
              · intro nodes finished hnodes hfinished
                exact .ok (.ofItems hnode hnodes) hfinished
          | mapping pairs =>
              apply unfoldOnce_settles hnode nofun hfinished
              intro houtside
              apply (unfoldPairs_settles houtside (hparts houtside hnumber true)
                (hparts houtside hnumber false) (parts_eq hnode) .nil hfinished).bind
              · exact fun e hfault => hfault
              · rintro entries finished ⟨hdistinct, hentries⟩ hfinished
                exact .ok (.ofPairs hnode hdistinct hentries) hfinished

/-- Unfolding from nowhere gives what `OutcomeOf` says. -/
inductive OutcomeOf (graph : Graph) (construct : Construction) (root : Nat) :
    Except Error Node → Prop where
  | tree {tree : Node} (htree : graph.Unfolds construct false root tree) :
      OutcomeOf graph construct root (.ok tree)
  | fault {e : Error} (hfault : graph.Faults construct [] false root e) :
      OutcomeOf graph construct root (.error e)

namespace OutcomeOf

variable {root : Nat} {outcome outcome' : Except Error Node}

theorem around_nil : graph.Around [] root := nofun

/-- There is one outcome: what has a tree has no fault. -/
theorem unique (houtcome : graph.OutcomeOf construct root outcome)
    (houtcome' : graph.OutcomeOf construct root outcome') : outcome' = outcome := by
  cases houtcome with
  | tree htree =>
      cases houtcome' with
      | tree htree' => rw [htree.unique htree']
      | fault hfault => exact absurd ⟨_, htree⟩ (hfault.not_hasTree around_nil)
  | fault hfault =>
      cases houtcome' with
      | tree htree => exact absurd ⟨_, htree⟩ (hfault.not_hasTree around_nil)
      | fault hfault' => rw [hfault.unique hfault' around_nil]

end OutcomeOf

theorem outcomeOf_unfoldWithin {fuel root : Nat} (hfuel : graph.nodes.size < fuel) :
    graph.OutcomeOf construct root
      ((graph.unfoldWithin construct fuel [] false root []).map Prod.fst) := by
  have hsettles : Settles graph construct _ _
      (graph.unfoldWithin construct fuel [] false root []) :=
    unfoldWithin_settles (by simpa using hfuel) .nil nofun nofun
  generalize graph.unfoldWithin construct fuel [] false root [] = run at hsettles
  cases hsettles with
  | ok htree hfinished => exact .tree htree
  | error hfault => exact .fault hfault

theorem unfold_eq_map (graph : Graph) (construct : Construction) (root : Nat) :
    graph.unfold construct root
      = (graph.unfoldWithin construct (graph.nodes.size + 1) [] false root []).map Prod.fst := by
  rw [unfold]
  cases graph.unfoldWithin construct (graph.nodes.size + 1) [] false root [] <;> rfl

theorem outcomeOf_unfold (graph : Graph) (construct : Construction) (root : Nat) :
    graph.OutcomeOf construct root (graph.unfold construct root) := by
  rw [unfold_eq_map]
  exact outcomeOf_unfoldWithin (Nat.lt_succ_self _)

variable {root : Nat}

theorem unfold_eq_ok_iff {tree : Node} :
    graph.unfold construct root = .ok tree ↔ graph.Unfolds construct false root tree := by
  constructor
  · intro htree
    have houtcome := outcomeOf_unfold graph construct root
    rw [htree] at houtcome
    cases houtcome with
    | tree htree => exact htree
  · intro htree
    exact (OutcomeOf.tree htree).unique (outcomeOf_unfold graph construct root)

theorem unfold_eq_error_iff {e : Error} :
    graph.unfold construct root = .error e ↔ graph.Faults construct [] false root e := by
  constructor
  · intro hfault
    have houtcome := outcomeOf_unfold graph construct root
    rw [hfault] at houtcome
    cases houtcome with
    | fault hfault => exact hfault
  · intro hfault
    exact (OutcomeOf.fault hfault).unique (outcomeOf_unfold graph construct root)

/-- A node has a tree exactly when nothing that the tree would show goes wrong. -/
theorem exists_unfold_eq_ok_iff :
    (∃ tree, graph.unfold construct root = .ok tree) ↔ graph.Unfoldable construct false root := by
  constructor
  · rintro ⟨tree, htree⟩
    exact (unfold_eq_ok_iff.mp htree).unfoldable
  · intro hunfoldable
    cases hrun : graph.unfold construct root with
    | ok tree => exact ⟨tree, rfl⟩
    | error e =>
        exact absurd hunfoldable
          ((unfold_eq_error_iff.mp hrun).not_unfoldable OutcomeOf.around_nil)

/-- Unfolding a graph is plain recursion.  It ends, with a tree or an error, within one step more
than there are nodes, whatever the values of scalars are made by.  It gives the tree of the root by
plain recursion, which exists when no collection that the tree would show contains itself, no
mapping has two scalar keys that are the same, and all scalars have values; a collection that
contains itself is an error.  An error is the first in the order of the document. -/
theorem unfold_is_plain_recursion (graph : Graph) (construct : Construction) (root : Nat) :
    (∀ fuel, graph.nodes.size < fuel →
      (graph.unfoldWithin construct fuel [] false root []).map Prod.fst
        = graph.unfold construct root) ∧
      (∀ tree, graph.unfold construct root = .ok tree ↔
        graph.Unfolds construct false root tree) ∧
      ((∃ tree, graph.unfold construct root = .ok tree) ↔
        graph.Unfoldable construct false root) ∧
      (∀ isKey number, graph.Occurs false root isKey number → graph.Contains number number →
        ∃ e, graph.unfold construct root = .error e) ∧
      ∀ e, graph.unfold construct root = .error e ↔ graph.Faults construct [] false root e := by
  refine ⟨?_, fun tree => unfold_eq_ok_iff, exists_unfold_eq_ok_iff, ?_,
    fun e => unfold_eq_error_iff⟩
  · intro fuel hfuel
    exact (outcomeOf_unfold graph construct root).unique (outcomeOf_unfoldWithin hfuel)
  · intro isKey number hoccurs hcontains
    cases hrun : graph.unfold construct root with
    | ok tree => exact absurd hcontains ((unfold_eq_ok_iff.mp hrun).unfoldable.acyclic hoccurs)
    | error e => exact ⟨e, rfl⟩

/-- A sequence with a truth value that is both a value and a key, beside a truth value that is a
key itself. -/
def sharingGraph : Graph where
  nodes := #[.mapping [(1, 2), (2, 3)], .scalar ⟨.boolean, "on"⟩, .sequence [3],
    .scalar ⟨.boolean, "yes"⟩]

/-- A sequence that contains itself as the value of a pair. -/
def loopingGraph : Graph where
  nodes := #[.sequence [1], .mapping [(2, 0)], .scalar ⟨.text, "again"⟩]

/-- What is shared is unfolded wherever it stands; what contains itself is not. -/
theorem unfold_is_plain_recursion_sharing :
    sharingGraph.unfold TaggedScalar.construct 0
        = .ok (.mapping [(.scalar (.text "on"), .sequence [.scalar (.boolean true)]),
            (.sequence [.scalar (.boolean true)], .scalar (.boolean true))]) ∧
      ∃ e, loopingGraph.unfold TaggedScalar.construct 0 = .error e := by
  obtain ⟨-, htree, -⟩ := unfold_is_plain_recursion sharingGraph TaggedScalar.construct 0
  obtain ⟨-, -, -, hloop, -⟩ := unfold_is_plain_recursion loopingGraph TaggedScalar.construct 0
  refine ⟨(htree _).mpr ?_, hloop false 0 .root ?_⟩
  · have hvalue : sharingGraph.Unfolds TaggedScalar.construct false 3 (.scalar (.boolean true)) :=
      .scalar rfl rfl
    have hkey : sharingGraph.Unfolds TaggedScalar.construct true 1 (.scalar (.text "on")) :=
      .scalar rfl rfl
    have hshared (isKey : Bool) : sharingGraph.Unfolds TaggedScalar.construct isKey 2
        (.sequence [.scalar (.boolean true)]) :=
      .ofItems rfl (.cons hvalue .nil)
    have hdistinct : sharingGraph.DistinctKeys TaggedScalar.construct (sharingGraph.parts 0) :=
      List.pairwise_singleton _ _
    exact .ofPairs rfl hdistinct (.cons ⟨hkey, hshared false⟩ (.cons ⟨hshared true, hvalue⟩ .nil))
  · have hpair : (false, 1) ∈ loopingGraph.parts 0 := List.mem_singleton.mpr rfl
    have hself : (false, 0) ∈ loopingGraph.parts 1 := List.mem_of_getElem? (i := 1) rfl
    exact .tail (.single ⟨false, hpair⟩) ⟨false, hself⟩

end Stylesheet.Yaml.Graph
