import Stylesheet.Proofs.Yaml.Composing
import Stylesheet.Proofs.Yaml.Unfold

/-!
# Reading documents

A library reads a text in steps, each of which can fail: the text is opened, it is composed to a
graph, and the graph is unfolded to the tree of its root.
-/

namespace Stylesheet.Yaml

namespace Library

/-- A text is opened and has a graph with a root. -/
structure Describes (library : Library) (text : String) (graph : Graph) (root : Nat) : Prop where
  opened : library.opens text = true
  composed : library.compose text = .ok (some (graph, root))

variable {library : Library} {text : String}

theorem read_of_unopened (hopens : library.opens text = false) :
    library.read text = .error .forbiddenCharacter := by
  rw [read, hopens]
  rfl

theorem read_of_composing {fault : Fault} (hopens : library.opens text = true)
    (hcompose : library.compose text = .error fault) :
    library.read text = .error (.fault fault) := by
  rw [read, hopens, hcompose]
  rfl

theorem read_of_empty (hopens : library.opens text = true)
    (hcompose : library.compose text = .ok none) : library.read text = .ok none := by
  rw [read, hopens, hcompose]
  rfl

namespace Describes

variable {graph : Graph} {root : Nat}

theorem read_eq (hdescribes : library.Describes text graph root) :
    library.read text = (graph.unfold library.construct root).map some := by
  rw [read, hdescribes.opened, hdescribes.composed]
  rfl

theorem read_of_fault {e : Error} (hdescribes : library.Describes text graph root)
    (hfault : graph.Faults library.construct [] false root e) : library.read text = .error e := by
  rw [hdescribes.read_eq, Graph.unfold_eq_error_iff.mpr hfault]
  rfl

theorem read_of_tree {tree : Node} (hdescribes : library.Describes text graph root)
    (htree : graph.Unfolds library.construct false root tree) :
    library.read text = .ok (some tree) := by
  rw [hdescribes.read_eq, Graph.unfold_eq_ok_iff.mpr htree]
  rfl

end Describes

/-- Reading a text gives what `ReadingOf` says. -/
inductive ReadingOf (library : Library) (text : String) : Except Error (Option Node) → Prop where
  | unopened (hopens : library.opens text = false) :
      ReadingOf library text (.error .forbiddenCharacter)
  | composing {fault : Fault} (hopens : library.opens text = true)
      (hcompose : library.compose text = .error fault) :
      ReadingOf library text (.error (.fault fault))
  | empty (hopens : library.opens text = true) (hcompose : library.compose text = .ok none) :
      ReadingOf library text (.ok none)
  | fault {graph : Graph} {root : Nat} {e : Error} (hdescribes : library.Describes text graph root)
      (hfault : graph.Faults library.construct [] false root e) : ReadingOf library text (.error e)
  | tree {graph : Graph} {root : Nat} {tree : Node} (hdescribes : library.Describes text graph root)
      (htree : graph.Unfolds library.construct false root tree) :
      ReadingOf library text (.ok (some tree))

theorem readingOf_read (library : Library) (text : String) :
    library.ReadingOf text (library.read text) := by
  cases hopens : library.opens text with
  | false =>
      rw [read_of_unopened hopens]
      exact .unopened hopens
  | true =>
      cases hcompose : library.compose text with
      | error fault =>
          rw [read_of_composing hopens hcompose]
          exact .composing hopens hcompose
      | ok described =>
          cases described with
          | none =>
              rw [read_of_empty hopens hcompose]
              exact .empty hopens hcompose
          | some described =>
              obtain ⟨graph, root⟩ := described
              have hdescribes : library.Describes text graph root := ⟨hopens, hcompose⟩
              cases hunfold : graph.unfold library.construct root with
              | error e =>
                  have hfault := Graph.unfold_eq_error_iff.mp hunfold
                  rw [hdescribes.read_of_fault hfault]
                  exact .fault hdescribes hfault
              | ok tree =>
                  have htree := Graph.unfold_eq_ok_iff.mp hunfold
                  rw [hdescribes.read_of_tree htree]
                  exact .tree hdescribes htree

/-- A document is the tree of the graph that its text describes. -/
theorem exists_tree_of_read {root : Node} (hread : library.read text = .ok (some root)) :
    ∃ graph number, library.Describes text graph number ∧
      graph.Unfolds library.construct false number root := by
  have hreading := library.readingOf_read text
  rw [hread] at hreading
  cases hreading with
  | tree hdescribes htree => exact ⟨_, _, hdescribes, htree⟩

/-- What is wrong with a text is found out in two ways: while it is composed, and from a scalar that
is of no sort that is read or does not fit its tag. -/
theorem standard_fails :
    (∀ text, FailsWith Fault.OfText (standard.compose text)) ∧
      ∀ scalar, FailsWith Fault.OfScalar (standard.construct scalar) :=
  ⟨fun text => Graph.composes_ofTokens_ofText text.toList, TaggedScalar.failsWith_construct⟩

end Library

end Stylesheet.Yaml
