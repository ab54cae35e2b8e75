import Stylesheet.Proofs.Lists
import Stylesheet.Proofs.Yaml.Document

/-!
# Keys of mappings

The keys of every mapping that a text shows are different scalars, wherever the mapping stands.
Sequences and mappings as keys are not compared with one another, and a NaN that is computed is not
the same as any other: only such keys can be alike.
-/

namespace Stylesheet

/-- Whether a number is a NaN, be it computed or the literal. -/
def Number.isNaN : Number → Bool
  | integer _ => false
  | real x => x.isNaN
  | nan => true

def Scalar.isNaN : Scalar → Bool
  | number n => n.isNaN
  | _ => false

/-- Whether two scalars are of one kind and show the same: equal values, or two NaNs. -/
def Scalar.alike (a b : Scalar) : Bool :=
  a.same b || (a.isNaN && b.isNaN)

mutual

/-- Whether two nodes are of one kind and hold the same. -/
def Node.alike : Node → Node → Bool
  | .scalar a, .scalar b => a.alike b
  | .sequence items, .sequence items' => Node.alikeItems items items'
  | .mapping pairs, .mapping pairs' => Node.alikePairs pairs pairs'
  | _, _ => false

def Node.alikeItems : List Node → List Node → Bool
  | [], [] => true
  | item :: rest, item' :: rest' => item.alike item' && Node.alikeItems rest rest'
  | _, _ => false

def Node.alikePairs : List (Node × Node) → List (Node × Node) → Bool
  | [], [] => true
  | (key, value) :: rest, (key', value') :: rest' =>
      key.alike key' && value.alike value' && Node.alikePairs rest rest'
  | _, _ => false

end

namespace Node

/-- `root.Shows part`: a node stands in a tree, at any depth, inside of keys too. -/
inductive Shows (root : Node) : Node → Prop where
  | root : Shows root root
  | item {items : List Node} {item : Node} (hwhole : Shows root (.sequence items))
      (hitem : item ∈ items) : Shows root item
  | key {pairs : List (Node × Node)} {pair : Node × Node} (hwhole : Shows root (.mapping pairs))
      (hpair : pair ∈ pairs) : Shows root pair.1
  | value {pairs : List (Node × Node)} {pair : Node × Node} (hwhole : Shows root (.mapping pairs))
      (hpair : pair ∈ pairs) : Shows root pair.2

/-- Whether a key is never refused as a duplicate: a collection, or a NaN. -/
def isUnchecked : Node → Bool
  | .scalar value => value.isNaN
  | _ => true

/-- No mapping of a tree has two keys that are alike. -/
def HasUniqueKeys (root : Node) : Prop :=
  ∀ pairs, root.Shows (.mapping pairs) →
    pairs.Pairwise fun earlier later => later.1.alike earlier.1 = false

/-- Two keys of a mapping in a tree are alike, and they are collections or NaNs. -/
inductive RepeatsUnchecked (root : Node) : Prop where
  | keys {pairs : List (Node × Node)} {earlier later : Node × Node}
      (hmapping : root.Shows (.mapping pairs)) (hpairs : [earlier, later].Sublist pairs)
      (hunchecked : later.1.isUnchecked = true) (halike : later.1.alike earlier.1 = true)

/-- Keys that are alike and are checked are the same scalar. -/
theorem exists_same_of_alike {later earlier : Node} (halike : later.alike earlier = true)
    (hchecked : later.isUnchecked = false) :
    ∃ a b, later = .scalar a ∧ earlier = .scalar b ∧ a.same b = true := by
  cases later with
  | scalar a =>
      cases earlier with
      | scalar b =>
          have hnumber : a.isNaN = false := hchecked
          rw [alike, Scalar.alike, hnumber, Bool.false_and, Bool.or_false] at halike
          exact ⟨a, b, rfl, rfl, halike⟩
      | sequence | mapping => cases halike
  | sequence | mapping => cases hchecked

end Node

namespace Yaml.Graph

variable {graph : Graph} {construct : Construction} {isKey : Bool} {number : Nat} {tree : Node}

theorem Unfolds.exists_items {nodes : List Node}
    (htree : graph.Unfolds construct isKey number (.sequence nodes)) :
    ∃ items, List.Forall₂ (graph.Unfolds construct false) items nodes := by
  cases htree with
  | sequence hnode hlength hitems => exact ⟨_, List.forall₂_iff_zip.mpr ⟨hlength, hitems⟩⟩

theorem Unfolds.exists_pairs {entries : List (Node × Node)}
    (htree : graph.Unfolds construct isKey number (.mapping entries)) :
    ∃ pairs, graph.nodes[number]? = some (.mapping pairs) ∧
      graph.DistinctKeys construct (graph.parts number) ∧
      List.Forall₂ (fun pair entry => graph.Unfolds construct true pair.1 entry.1 ∧
        graph.Unfolds construct false pair.2 entry.2) pairs entries := by
  cases htree with
  | mapping hnode hdistinct hlength hkeys hvalues =>
      exact ⟨_, hnode, hdistinct,
        List.forall₂_iff_zip.mpr ⟨hlength, fun hpair => ⟨hkeys hpair, hvalues hpair⟩⟩⟩

/-- What a tree shows is the tree of a node of the graph. -/
theorem Unfolds.exists_of_shows {part : Node} (htree : graph.Unfolds construct isKey number tree)
    (hpart : tree.Shows part) : ∃ asKey place, graph.Unfolds construct asKey place part := by
  induction hpart with
  | root => exact ⟨isKey, number, htree⟩
  | item _ hitem ih =>
      obtain ⟨_, _, hwhole⟩ := ih
      obtain ⟨items, hitems⟩ := hwhole.exists_items
      obtain ⟨place, -, hplace⟩ := exists_mem_of_forall₂ hitems.flip hitem
      exact ⟨false, place, hplace⟩
  | key _ hpair ih =>
      obtain ⟨_, _, hwhole⟩ := ih
      obtain ⟨pairs, -, -, hpairs⟩ := hwhole.exists_pairs
      obtain ⟨pair, -, hkey, -⟩ := exists_mem_of_forall₂ hpairs.flip hpair
      exact ⟨true, pair.1, hkey⟩
  | value _ hpair ih =>
      obtain ⟨_, _, hwhole⟩ := ih
      obtain ⟨pairs, -, -, hpairs⟩ := hwhole.exists_pairs
      obtain ⟨pair, -, -, hvalue⟩ := exists_mem_of_forall₂ hpairs.flip hpair
      exact ⟨false, pair.2, hvalue⟩

/-- The scalar keys of a mapping, in the order of its pairs. -/
theorem keys_flatMap (pairs : List (Nat × Nat)) :
    graph.keys construct (pairs.flatMap fun pair => [(true, pair.1), (false, pair.2)])
      = pairs.filterMap fun pair => graph.key? construct pair.1 := by
  induction pairs with
  | nil => rfl
  | cons pair rest ih =>
      rw [List.flatMap_cons, keys_append, ih]
      cases hkey : graph.key? construct pair.1 <;> simp [keys, hkey]

/-- No scalar key of a mapping that has a tree is the same as an earlier one. -/
theorem Unfolds.pairwise_scalars {entries : List (Node × Node)}
    (htree : graph.Unfolds construct isKey number (.mapping entries)) :
    entries.Pairwise fun earlier later => ∀ a b, later.1 = .scalar a → earlier.1 = .scalar b →
      a.same b = false := by
  obtain ⟨pairs, hnode, hdistinct, hpairs⟩ := htree.exists_pairs
  rw [DistinctKeys, parts_eq hnode, GraphNode.parts, keys_flatMap,
    List.pairwise_filterMap] at hdistinct
  refine pairwise_of_forall₂ hpairs hdistinct ?_
  rintro earlier later ⟨_, _⟩ ⟨_, _⟩ ⟨hearlier, -⟩ ⟨hlater, -⟩ hkeys a b rfl rfl
  have hearlier : graph.key? construct earlier.1 = some ⟨earlier.1, b⟩ :=
    key?_eq_some_iff.mpr ⟨rfl, hearlier⟩
  have hlater : graph.key? construct later.1 = some ⟨later.1, a⟩ :=
    key?_eq_some_iff.mpr ⟨rfl, hlater⟩
  have hdifferent := hkeys _ hearlier _ hlater
  rw [Key.same, Bool.or_eq_false_iff] at hdifferent
  exact hdifferent.2

end Yaml.Graph

namespace Yaml

variable {text : String} {root : Node}

/-- The scalar keys of a mapping that a text shows are different. -/
theorem pairwise_scalars_of_read {pairs : List (Node × Node)}
    (hread : read text = .ok (some root)) (hmapping : root.Shows (.mapping pairs)) :
    pairs.Pairwise fun earlier later => ∀ a b, later.1 = .scalar a → earlier.1 = .scalar b →
      a.same b = false := by
  obtain ⟨graph, number, -, htree⟩ := Library.exists_tree_of_read hread
  obtain ⟨_, _, hpairs⟩ := htree.exists_of_shows hmapping
  exact hpairs.pairwise_scalars

/-- A text is no document, or no mapping of it has two keys that are alike. -/
def ReadsUniqueKeys (text : String) : Prop :=
  ∀ root, read text = .ok (some root) → root.HasUniqueKeys

/-- The keys of a document are unique, in all mappings of its tree, unless two collections or two
NaNs are keys of one mapping and alike. -/
theorem readsUniqueKeys_iff (text : String) :
    ReadsUniqueKeys text ↔ ¬ ∃ root, read text = .ok (some root) ∧ root.RepeatsUnchecked := by
  constructor
  · rintro hunique ⟨root, hread, hmapping, hpairs, -, halike⟩
    have hdifferent := List.pairwise_iff_forall_sublist.mp (hunique root hread _ hmapping) hpairs
    cases halike.symm.trans hdifferent
  · intro hnone root hread pairs hmapping
    refine List.pairwise_iff_forall_sublist.mpr fun {earlier later} hpairs => ?_
    rw [Bool.eq_false_iff]
    intro halike
    cases hunchecked : later.1.isUnchecked with
    | true => exact hnone ⟨root, hread, hmapping, hpairs, hunchecked, halike⟩
    | false =>
        obtain ⟨a, b, hlater, hearlier, hsame⟩ := Node.exists_same_of_alike halike hunchecked
        have hscalars := pairwise_scalars_of_read hread hmapping
        have hdifferent := List.pairwise_iff_forall_sublist.mp hscalars hpairs a b hlater hearlier
        cases hsame.symm.trans hdifferent

/-- Whether a text was read as a mapping of two pairs with keys that are alike. -/
def repeatsKey : Except Error (Option Node) → Bool
  | .ok (some (.mapping [earlier, later])) => later.1.alike earlier.1
  | _ => false

theorem not_readsUniqueKeys_of_repeatsKey (hrepeats : repeatsKey (read text) = true) :
    ¬ ReadsUniqueKeys text := by
  intro hunique
  generalize hread : read text = document at hrepeats
  unfold repeatsKey at hrepeats
  split at hrepeats
  · next earlier later =>
      have hpairs := hunique _ hread _ .root
      rw [List.pairwise_pair, hrepeats] at hpairs
      cases hpairs
  · cases hrepeats

/-- A mapping with a sequence as its key, twice. -/
def sequenceKeysText : String := "? [a]\n: 1\n? [a]\n: 2"

/-- A mapping with a NaN as its key, twice. -/
def nanKeysText : String := "!!float nan: 1\n!!float nan: 2"

/-- Both texts are read, though their keys are alike. -/
theorem not_readsUniqueKeys_sequences :
    ¬ ReadsUniqueKeys sequenceKeysText ∧ ¬ ReadsUniqueKeys nanKeysText :=
  ⟨not_readsUniqueKeys_of_repeatsKey (by decide +kernel),
    not_readsUniqueKeys_of_repeatsKey (by decide +kernel)⟩

end Yaml

end Stylesheet
