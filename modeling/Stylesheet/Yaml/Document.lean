import Stylesheet.Yaml.Grammar

/-!
# Documents in YAML

A text is read in three steps: its tokens, the graph that they describe, and the tree of the root
of the graph.
-/

namespace Stylesheet.Yaml

/-- A library for YAML, as far as documents are read with it. -/
structure Library where
  /-- Whether a text is opened: all its characters are allowed. -/
  opens : String → Bool
  /-- The graph of the document of a text, and its root.  An empty document has none. -/
  compose : String → Except Fault (Option (Graph × Nat))
  /-- The values of scalars. -/
  construct : Construction

namespace Library

/-- Read a text as a tree.  An empty document has none. -/
def read (library : Library) (text : String) : Except Error (Option Node) :=
  if library.opens text then
    match library.compose text with
    | .error fault => .error (.fault fault)
    | .ok none => .ok none
    | .ok (some (graph, root)) => (graph.unfold library.construct root).map some
  else .error .forbiddenCharacter

/-- The library that reads the tokens, the grammar and the scalars of this development. -/
def standard : Library where
  opens text := text.toList.all isAllowed
  compose text := Graph.ofTokens (TokenStream.ofText text.toList)
  construct := TaggedScalar.construct

end Library

/-- Read a text as a tree. -/
def read (text : String) : Except Error (Option Node) :=
  Library.standard.read text

end Stylesheet.Yaml
