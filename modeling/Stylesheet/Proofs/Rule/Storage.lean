import Stylesheet.Proofs.Rule.Fallback
import Stylesheet.Proofs.Rule.Literal
import Stylesheet.Proofs.Rule.Parts

/-!
# The order of storage

The branches of a conditional value are stored one after the other: a branch whose key mentions the
fallback goes behind those that are stored already, any other in front of them.  The kinds of their
values are kept apart, as they are written.  In the end the first branches are those without the
fallback, the last one written first, and the kind is still that of the first value written.
-/

namespace Stylesheet

open Logged

/-- Branches on their way into storage: the kinds of their values in the order in which they are
written, and the branches in the order in which they are tried. -/
structure Storing where
  kinds : List Kind
  branches : List (Branch Value)

namespace Storing

def empty : Storing := ⟨[], []⟩

/-- Store one more branch: a fallback behind all others, any other branch in front of them. -/
def add (storing : Storing) (branch : Branch Value) : Storing where
  kinds := storing.kinds ++ [branch.value.kind]
  branches :=
    if branch.isFallback then storing.branches ++ [branch] else branch :: storing.branches

/-- What is stored of some branches. -/
def ofWritten (written : List (Branch Value)) : Storing :=
  ⟨written.map (·.value.kind), storageOrder written⟩

theorem add_ofWritten (earlier : List (Branch Value)) (branch : Branch Value) :
    (ofWritten earlier).add branch = ofWritten (earlier ++ [branch]) := by
  unfold add ofWritten storageOrder
  cases hfallback : branch.isFallback with
  | true => simp [hfallback]
  | false => simp [hfallback]

theorem foldl_add_ofWritten (earlier later : List (Branch Value)) :
    later.foldl add (ofWritten earlier) = ofWritten (earlier ++ later) := by
  induction later generalizing earlier with
  | nil => rw [List.foldl_nil, List.append_nil]
  | cons branch later ih =>
      rw [List.foldl_cons, add_ofWritten, ih, List.append_assoc, List.singleton_append]

/-- Storing branches one by one leaves their kinds as written and the branches in the order in which
they are tried. -/
theorem foldl_add_empty (written : List (Branch Value)) :
    written.foldl add empty = ofWritten written :=
  foldl_add_ofWritten [] written

end Storing

namespace Node

/-- Whether a key mentions the fallback: its text has the fallback's name somewhere in it. -/
def mentionsFallback (key : Node) : Bool :=
  match key.text? with
  | some source => decide (Constants.fallback.toList <:+: source.toList)
  | none => false

/-- The pairs of a mapping in the order in which their branches are stored: those whose key does not
mention the fallback in reverse, then the others as written. -/
def storedPairs (pairs : List (Node × Node)) : List (Node × Node) :=
  (pairs.filter fun pair => !pair.1.mentionsFallback).reverse
    ++ pairs.filter fun pair => pair.1.mentionsFallback

/-- Every pair is stored once. -/
theorem storedPairs_perm (pairs : List (Node × Node)) : (storedPairs pairs).Perm pairs := by
  have hsplit := List.filter_append_perm (fun pair => pair.1.mentionsFallback) pairs
  have hplain := (pairs.filter fun pair => !pair.1.mentionsFallback).reverse_perm
  exact (List.perm_append_comm.trans (hplain.append_left _)).trans hsplit

/-- A conditional value of some pairs: what its kind and its branches are. -/
structure Stores (context : RuleContext) (pairs : List (Node × Node)) (kind : Kind)
    (stored : List (Branch Value)) : Prop where
  /-- Each pair is stored once. -/
  perm : (storedPairs pairs).Perm pairs
  /-- Each branch is read from the pair whose place it has. -/
  arranged : List.Forall₂ (Branch.ReadFrom context) (storedPairs pairs) stored
  /-- The branches are those of the pairs as they are written, stored one by one. -/
  storing : ∃ written, List.Forall₂ (Branch.ReadFrom context) pairs written ∧
    written.foldl Storing.add .empty = ⟨written.map (·.value.kind), stored⟩
  /-- The kind is that of the first value written, wherever its branch is stored. -/
  kind : pairs = [] ∧ kind = .undefined ∨
    ∃ key node rest first, pairs = (key, node) :: rest ∧
      (Value.ofNode context node).outcome = .ok first ∧ kind = first.kind

end Node

variable {context : RuleContext}

theorem Branch.ReadFrom.isFallback_eq {pair : Node × Node} {branch : Branch Value}
    (hread : branch.ReadFrom context pair) : branch.isFallback = pair.1.mentionsFallback := by
  rw [Node.mentionsFallback, hread.source, Branch.isFallback, Bool.eq_iff_iff,
    Literal.mentions_iff_isInfix, decide_eq_true_iff]

/-- Branches that are stored in order are read from the pairs in the order of storage. -/
theorem forall₂_storageOrder {pairs : List (Node × Node)} {written : List (Branch Value)}
    (hwritten : List.Forall₂ (Branch.ReadFrom context) pairs written) :
    List.Forall₂ (Branch.ReadFrom context) (Node.storedPairs pairs) (storageOrder written) := by
  apply List.rel_append
  · apply List.rel_reverse
    refine List.rel_filter (fun pair branch hread => ?_) hwritten
    simp only [hread.isFallback_eq]
  · refine List.rel_filter (fun pair branch hread => ?_) hwritten
    simp only [hread.isFallback_eq]

namespace Value

/-- A conditional value stores the pairs of its mapping. -/
theorem stores_of_conditional {pairs : List (Node × Node)} {kind : Kind}
    {stored : List (Branch Value)}
    (hvalue : (ofNode context (.mapping pairs)).outcome = .ok (.conditional kind stored)) :
    Node.Stores context pairs kind stored := by
  obtain ⟨_, written, hpairs, hwritten, rfl, rfl⟩ := ofNode_eq_conditional_iff.mp hvalue
  cases hpairs
  refine ⟨Node.storedPairs_perm pairs, forall₂_storageOrder hwritten,
    ⟨written, hwritten, Storing.foldl_add_empty written⟩, ?_⟩
  cases hwritten with
  | nil => exact .inl ⟨rfl, rfl⟩
  | @cons pair branch rest others hread hrest =>
      exact .inr ⟨pair.1, pair.2, rest, branch.value, rfl, hread.value, rfl⟩

/-- A mapping is read as a conditional value that stores its pairs, each once, in the order of
storage and under the kind of the first, and so is every mapping inside it, at any depth. -/
theorem ofNode_mapping_stores_pairs {pairs : List (Node × Node)} {value : Value}
    (hvalue : (ofNode context (.mapping pairs)).outcome = .ok value) :
    (∃ kind stored, value = .conditional kind stored ∧ Node.Stores context pairs kind stored) ∧
    (∀ inner, (Node.mapping pairs).Reaches (.mapping inner) →
      ∃ kind stored, value.HasPart (.conditional kind stored) ∧
        (ofNode context (.mapping inner)).outcome = .ok (.conditional kind stored) ∧
        Node.Stores context inner kind stored) ∧
    ∀ kind stored, value.HasPart (.conditional kind stored) →
      ∃ inner, (Node.mapping pairs).Reaches (.mapping inner) ∧
        (ofNode context (.mapping inner)).outcome = .ok (.conditional kind stored) ∧
        Node.Stores context inner kind stored := by
  refine ⟨?_, ?_, ?_⟩
  · obtain ⟨written, hwritten, rfl⟩ := ofNode_mapping_eq_ok_iff.mp hvalue
    exact ⟨_, _, rfl, stores_of_conditional hvalue⟩
  · intro inner hreaches
    obtain ⟨part, hpart, hinner⟩ := exists_hasPart_of_reaches hvalue hreaches
    obtain ⟨written, hwritten, rfl⟩ := ofNode_mapping_eq_ok_iff.mp hinner
    exact ⟨_, _, hpart, hinner, stores_of_conditional hinner⟩
  · intro kind stored hpart
    obtain ⟨inner, hreaches, hinner⟩ := exists_reaches_of_hasPart hvalue hpart
    obtain ⟨innerPairs, written, rfl, -⟩ := ofNode_eq_conditional_iff.mp hinner
    exact ⟨innerPairs, hreaches, hinner, stores_of_conditional hinner⟩

/-- A key that does not mention the fallback. -/
def wideText : String := "$\x7bwide\x7d"

def wideKey : Node := .scalar (.text wideText)

/-- One under the fallback and two under another key, written in this order. -/
def innerPairs : List (Node × Node) :=
  [(.fallbackKey, .scalar (.number (.integer 1))), (wideKey, .scalar (.number (.integer 2)))]

/-- A fallback and a mapping inside, written in this order. -/
def outerPairs : List (Node × Node) :=
  [(.fallbackKey, .scalar (.number (.integer 0))), (wideKey, .mapping innerPairs)]

/-- The branches of two values, as they are written. -/
def fallbackAndWide (first second : Value) : List (Branch Value) :=
  [⟨fallbackText, Expression.compile Constants.fallback, first⟩,
    ⟨wideText, Expression.compile "wide", second⟩]

theorem branchesOfPairs_fallbackAndWide {node node' : Node} {first second : Value}
    (hfirst : (ofNode context node).outcome = .ok first)
    (hsecond : (ofNode context node').outcome = .ok second) :
    (branchesOfPairs context [(.fallbackKey, node), (wideKey, node')]).outcome
      = .ok (fallbackAndWide first second) := by
  have hwide : wideKey.condition? = some (wideText, "wide") := Node.condition?_text (by decide)
  exact branchesOfPairs_cons_eq_ok_iff.mpr
    ⟨_, _, _, _, Node.condition?_fallbackKey, hfirst, branchesOfPairs_cons_eq_ok_iff.mpr
      ⟨_, _, _, _, hwide, hsecond, outcome_branchesOfPairs_nil, rfl⟩, rfl⟩

theorem storedPairs_outerPairs : Node.storedPairs outerPairs
    = [(wideKey, .mapping innerPairs), (.fallbackKey, .scalar (.number (.integer 0)))] := by
  have hfallback : Node.fallbackKey.mentionsFallback = true := by decide
  have hwide : wideKey.mentionsFallback = false := by decide
  simp [Node.storedPairs, outerPairs, hfallback, hwide]

/-- A rule without a key, in the environment that knows nothing. -/
def bareContext : RuleContext := ⟨({} : Environment).provider, none⟩

/-- The other key is stored first and the fallback last, outside and inside. -/
theorem ofNode_mapping_stores_pairs_outerPairs :
    ∃ value, (ofNode bareContext (.mapping outerPairs)).outcome = .ok value ∧
      value.kind = .number ∧ value.branches.map (·.source) = [wideText, fallbackText] ∧
      Node.storedPairs outerPairs
        = [(wideKey, .mapping innerPairs), (.fallbackKey, .scalar (.number (.integer 0)))] ∧
      ∃ kind stored, value.HasPart (.conditional kind stored) ∧
        Node.Stores bareContext innerPairs kind stored := by
  have hinner : (ofNode bareContext (.mapping innerPairs)).outcome = .ok _ :=
    ofNode_mapping_eq_ok_iff.mpr ⟨_, branchesOfPairs_fallbackAndWide
      (outcome_ofNode_number _) (outcome_ofNode_number _), rfl⟩
  have houter : (ofNode bareContext (.mapping outerPairs)).outcome = .ok _ :=
    ofNode_mapping_eq_ok_iff.mpr ⟨_, branchesOfPairs_fallbackAndWide
      (outcome_ofNode_number _) hinner, rfl⟩
  obtain ⟨-, hnested, -⟩ := ofNode_mapping_stores_pairs houter
  obtain ⟨kind, stored, hpart, -, hstores⟩ :=
    hnested innerPairs (.branch (List.mem_cons_of_mem _ List.mem_cons_self) (.self _))
  exact ⟨_, houter, rfl, by decide, storedPairs_outerPairs, kind, stored, hpart, hstores⟩

end Value

end Stylesheet
