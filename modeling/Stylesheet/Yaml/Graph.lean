import Stylesheet.Yaml.Value

/-!
# Graphs of nodes

A text describes a graph, as aliases name nodes that stand elsewhere: nodes can be shared and can
contain themselves.  The tree of a node is its unfolding.  A node that is met again inside itself
has none.
-/

namespace Stylesheet.Yaml

/-- A node of a graph; the parts of a collection are named by their numbers. -/
inductive GraphNode where
  | scalar (value : TaggedScalar)
  | sequence (items : List Nat)
  | mapping (pairs : List (Nat × Nat))
deriving Repr

/-- The nodes of a graph by their numbers. -/
structure Graph where
  nodes : Array GraphNode
deriving Repr

namespace Graph

/-- The trees of collections that are finished. -/
abbrev Finished : Type :=
  List (Nat × Node)

/-- A step of unfolding: a node's number and what is finished give its tree and what is finished
then. -/
abbrev Unfolding (α : Type) : Type :=
  Finished → Except Error (α × Finished)

def unfoldItems (unfold : Nat → Unfolding Node) : List Nat → Unfolding (List Node)
  | [], finished => .ok ([], finished)
  | item :: rest, finished => do
      let (node, finished) ← unfold item finished
      let (nodes, finished) ← unfoldItems unfold rest finished
      .ok (node :: nodes, finished)

/-- A scalar key of a mapping, with the number of its node. -/
structure Key where
  number : Nat
  scalar : Scalar

/-- Whether two keys are one.  A node is always the same key as itself, also if its value is a
computed NaN, which differs from itself. -/
def Key.same (a b : Key) : Bool :=
  a.number == b.number || a.scalar.same b.scalar

/-- Add the key of a pair to the scalar keys that came before it, unless it is one of them. -/
def addKey (seen : List Key) (number : Nat) : Node → Except Error (List Key)
  | .scalar scalar =>
      let key : Key := ⟨number, scalar⟩
      if seen.any key.same then .error (.duplicateKey scalar) else .ok (key :: seen)
  | _ => .ok seen

/-- Unfold the pairs of a mapping, from first to last, each key before its value. -/
def unfoldPairs (unfoldKey unfold : Nat → Unfolding Node) :
    List Key → List (Nat × Nat) → Unfolding (List (Node × Node))
  | _, [], finished => .ok ([], finished)
  | seen, (key, value) :: rest, finished => do
      let (keyNode, finished) ← unfoldKey key finished
      let seen ← addKey seen key keyNode
      let (node, finished) ← unfold value finished
      let (pairs, finished) ← unfoldPairs unfoldKey unfold seen rest finished
      .ok ((keyNode, node) :: pairs, finished)

/-- Unfold a collection that is neither finished nor around itself. -/
def unfoldOnce (number : Nat) (inside : List Nat) (unfold : Unfolding Node) : Unfolding Node :=
  fun finished =>
    match finished.lookup number with
    | some node => .ok (node, finished)
    | none =>
        if inside.contains number then .error .recursiveAlias
        else do
          let (node, finished) ← unfold finished
          .ok (node, (number, node) :: finished)

/-- The tree of a node, given how the values of scalars are made and the collections that the node
is inside of.  These are different nodes, so the fuel suffices if it is more than the number of
nodes. -/
def unfoldWithin (graph : Graph) (construct : Construction) :
    Nat → List Nat → Bool → Nat → Unfolding Node
  | 0, _, _, _, _ => .error .recursiveAlias
  | fuel + 1, inside, isKey, number, finished =>
      let unfold := unfoldWithin graph construct fuel (number :: inside)
      match graph.nodes[number]? with
      | none => .error (.fault .malformed)
      | some (.scalar value) => do
          .ok (.scalar (← construct.convert isKey value), finished)
      | some (.sequence items) =>
          unfoldOnce number inside
            (fun finished => do
              let (nodes, finished) ← unfoldItems (unfold false) items finished
              .ok (.sequence nodes, finished))
            finished
      | some (.mapping pairs) =>
          unfoldOnce number inside
            (fun finished => do
              let (pairs, finished) ← unfoldPairs (unfold true) (unfold false) [] pairs finished
              .ok (.mapping pairs, finished))
            finished

/-- The tree of a node. -/
def unfold (graph : Graph) (construct : Construction) (root : Nat) : Except Error Node := do
  let (node, _) ← graph.unfoldWithin construct (graph.nodes.size + 1) [] false root []
  .ok node

end Graph

end Stylesheet.Yaml
