import Stylesheet.Yaml.Graph
import Stylesheet.Yaml.TokenStream

/-!
# The grammar of YAML documents

    document := [{directive} '---'] [node] {'...'}
    node := alias | properties content | properties
    properties := [anchor] [tag] | [tag] [anchor]
    content := scalar | block sequence | block mapping | flow sequence | flow mapping
    block sequence := start {'-' [node]} end
    block mapping := start {'?' [node] [':' [node]]} end
    flow sequence := '[' [entry {',' entry} [',']] ']'
    flow mapping := '{' [pair {',' pair} [',']] '}'

The tokens of a document are read into a graph.  What is left out is an empty node.  Every step
takes one unit of fuel; between two tokens there are less than three steps.
-/

namespace Stylesheet.Yaml

/-- How deep collections can be nested in each other. -/
def nestingLimit : Nat := 480

/-- How far the tokens of a document have been read. -/
structure DocumentState where
  tokens : List Token
  /-- What is wrong behind the tokens. -/
  failure : Fault
  nodes : Array GraphNode := #[]
  /-- The numbers of the nodes that have anchors. -/
  anchors : List (String × Nat) := []
  /-- What the handles of tags stand for. -/
  handles : List (String × String)
  /-- How many levels of collections can still be opened. -/
  room : Nat := nestingLimit

namespace Grammar

/-- Reading of a part of a document. -/
abbrev Reading (α : Type) : Type :=
  StateT DocumentState (Except Fault) α

def malformed {α : Type} : Reading α :=
  throw .malformed

def peek : Reading Token := do
  let state ← get
  match state.tokens with
  | token :: _ => return token
  | [] => throw state.failure

def advance : Reading Unit :=
  modify fun state => { state with tokens := state.tokens.tail }

/-- Move over the next token if it is a given one. -/
def accept (token : Token) : Reading Bool := do
  if (← peek) == token then
    advance
    return true
  else
    return false

def addNode (node : GraphNode) : Reading Nat := do
  let state ← get
  set { state with nodes := state.nodes.push node }
  return state.nodes.size

def addEmpty : Reading Nat :=
  addNode (.scalar ⟨.null, ""⟩)

def bindAnchor (anchor : Option String) (number : Nat) : Reading Unit :=
  match anchor with
  | none => return
  | some name => modify fun state => { state with anchors := (name, number) :: state.anchors }

def findAnchor (name : String) : Reading Nat := do
  match (← get).anchors.lookup name with
  | some number => return number
  | none => malformed

/-- Refuse an anchor that names a node already. -/
def checkAnchor (anchor : Option String) : Reading Unit := do
  match anchor with
  | none => return
  | some name => if ((← get).anchors.lookup name).isSome then malformed

def addScalar (anchor : Option String) (tag : Tag) (text : String) : Reading Nat := do
  let number ← addNode (.scalar ⟨tag, text⟩)
  bindAnchor anchor number
  return number

/-- Read what is inside a collection. -/
def inside {α : Type} (parts : Reading α) : Reading α := do
  match (← get).room with
  | 0 => throw .tooDeep
  | room + 1 => do
      modify fun state => { state with room := room }
      let result ← parts
      modify fun state => { state with room := room + 1 }
      return result

/-- Add a collection.  It can be named inside itself, so it has its number before its parts. -/
def addCollection (anchor : Option String) (parts : Reading GraphNode) : Reading Nat := do
  let number ← addNode (.sequence [])
  bindAnchor anchor number
  let node ← inside parts
  modify fun state => { state with nodes := state.nodes.setIfInBounds number node }
  return number

structure Properties where
  anchor : Option String := none
  /-- The full name of its tag. -/
  tagName : Option String := none

def Properties.isPresent (properties : Properties) : Bool :=
  properties.anchor.isSome || properties.tagName.isSome

def tagName (written : WrittenTag) : Reading String := do
  match written.handle with
  | none => return written.suffix
  | some handle =>
      match (← get).handles.lookup handle with
      | some meaning => return meaning ++ written.suffix
      | none => malformed

def optionalTag : Reading (Option String) := do
  match ← peek with
  | .tag written => do
      advance
      return some (← tagName written)
  | _ => return none

def optionalAnchor : Reading (Option String) := do
  match ← peek with
  | .anchor name => do
      advance
      return some name
  | _ => return none

/-- Read the properties of a node, in either order. -/
def properties : Reading Properties := do
  match ← optionalAnchor with
  | some name => return { anchor := some name, tagName := ← optionalTag }
  | none =>
      match ← optionalTag with
      | some name => return { anchor := ← optionalAnchor, tagName := some name }
      | none => return {}

/-- The tag of a scalar.  A plain scalar without a tag, and any scalar with the tag `!`, has the tag
of its form; other scalars without a tag are texts. -/
def scalarTag (properties : Properties) (text : String) (plain : Bool) : Tag :=
  match properties.tagName with
  | some "!" => PlainForm.tag text.toList
  | some name => Tag.ofName name
  | none => if plain then PlainForm.tag text.toList else .text

/-- Where a node stands, which decides what it can be. -/
inductive Place where
  /-- Between brackets or braces. -/
  | flow
  | block
  /-- In a block mapping, where the entries of a sequence need no indentation. -/
  | blockPair
deriving DecidableEq

/-- Read a node, unless one of some tokens comes first. -/
def nodeUnless (closing : List Token) (node : Reading Nat) : Reading Nat := do
  if closing.contains (← peek) then addEmpty else node

/-- Read the value of a pair that may have one. -/
def optionalValue (closing : List Token) (node : Reading Nat) : Reading Nat := do
  if ← accept .value then nodeUnless closing node else addEmpty

/-- Read what comes before the next part of a flow collection: nothing before the first, and a comma
before others.  The result says whether the collection ends instead. -/
def flowEnd (closing : Token) (first : Bool) : Reading Bool := do
  if ← accept closing then return true
  unless first do
    unless ← accept .flowEntry do malformed
  accept closing

mutual

def node : Nat → Place → Reading Nat
  | 0, _ => malformed
  | fuel + 1, place => do
      match ← peek with
      | .alias name => do
          advance
          findAnchor name
      | _ => do
          let properties ← properties
          let next ← peek
          checkAnchor properties.anchor
          match next, place with
          | .scalar text plain, _ => do
              advance
              addScalar properties.anchor (scalarTag properties text plain) text
          | .flowSequenceStart, _ => do
              advance
              addCollection properties.anchor do
                return .sequence (← flowItems fuel true)
          | .flowMappingStart, _ => do
              advance
              addCollection properties.anchor do
                return .mapping (← flowPairs fuel true)
          | .blockEntry, .blockPair =>
              addCollection properties.anchor do
                return .sequence (← openItems fuel)
          | .blockSequenceStart, .block | .blockSequenceStart, .blockPair => do
              advance
              addCollection properties.anchor do
                return .sequence (← blockItems fuel)
          | .blockMappingStart, .block | .blockMappingStart, .blockPair => do
              advance
              addCollection properties.anchor do
                return .mapping (← blockPairs fuel)
          | _, _ =>
              if properties.isPresent then
                addScalar properties.anchor (scalarTag properties "" true) ""
              else malformed

/-- Read the entries of a block sequence, with its end. -/
def blockItems : Nat → Reading (List Nat)
  | 0 => malformed
  | fuel + 1 => do
      if ← accept .blockEntry then
        let item ← nodeUnless [.blockEntry, .blockEnd] (node fuel .block)
        return item :: (← blockItems fuel)
      else if ← accept .blockEnd then return []
      else malformed

/-- Read the entries of a sequence without indentation. -/
def openItems : Nat → Reading (List Nat)
  | 0 => malformed
  | fuel + 1 => do
      if ← accept .blockEntry then
        let item ← nodeUnless [.blockEntry, .key, .value, .blockEnd] (node fuel .block)
        return item :: (← openItems fuel)
      else return []

/-- Read the pairs of a block mapping, with its end. -/
def blockPairs : Nat → Reading (List (Nat × Nat))
  | 0 => malformed
  | fuel + 1 => do
      if ← accept .key then
        let key ← nodeUnless [.key, .value, .blockEnd] (node fuel .blockPair)
        let value ← optionalValue [.key, .value, .blockEnd] (node fuel .blockPair)
        return (key, value) :: (← blockPairs fuel)
      else if ← accept .blockEnd then return []
      else malformed

/-- Read the items of a flow sequence, with its end.  A pair among them is a mapping. -/
def flowItems : Nat → Bool → Reading (List Nat)
  | 0, _ => malformed
  | fuel + 1, first => do
      if ← flowEnd .flowSequenceEnd first then return []
      let item ←
        if ← accept .key then
          addCollection none do
            let key ← nodeUnless [.value, .flowEntry, .flowSequenceEnd] (node fuel .flow)
            let value ← optionalValue [.flowEntry, .flowSequenceEnd] (node fuel .flow)
            return .mapping [(key, value)]
        else node fuel .flow
      return item :: (← flowItems fuel false)

/-- Read the pairs of a flow mapping, with its end.  A node alone is a key without a value. -/
def flowPairs : Nat → Bool → Reading (List (Nat × Nat))
  | 0, _ => malformed
  | fuel + 1, first => do
      if ← flowEnd .flowMappingEnd first then return []
      let pair ←
        if ← accept .key then do
          let key ← nodeUnless [.value, .flowEntry, .flowMappingEnd] (node fuel .flow)
          pure (key, ← optionalValue [.flowEntry, .flowMappingEnd] (node fuel .flow))
        else do
          let key ← node fuel .flow
          pure (key, ← addEmpty)
      return pair :: (← flowPairs fuel false)

end

/-- What handles stand for without directives. -/
def standardHandles : List (String × String) :=
  [("!", "!"), ("!!", Tag.standard)]

/-- Read the directives of a document; `versioned` says whether one gave its version. -/
def directives (versioned : Bool) (handles : List (String × String)) :
    List Token → Option (List (String × String) × List Token)
  | .version major :: rest =>
      if versioned || major != 1 then none else directives true handles rest
  | .tagHandle handle meaning :: rest =>
      if (handles.lookup handle).isSome then none
      else directives versioned ((handle, meaning) :: handles) rest
  | .otherDirective :: rest => directives versioned handles rest
  | tokens => some (handles ++ standardHandles, tokens)

/-- Whether a token starts a document with a marker. -/
def opensDocument : Token → Bool
  | .version _ | .tagHandle _ _ | .otherDirective | .documentStart => true
  | _ => false

def content (fuel : Nat) : Reading Nat := do
  match ← peek with
  | .documentEnd | .streamEnd => addEmpty
  | next => if opensDocument next then addEmpty else node fuel .block

def root (fuel : Nat) : Reading Nat := do
  if opensDocument (← peek) then
    let state ← get
    match directives false [] state.tokens with
    | none => malformed
    | some (handles, tokens) => do
        set { state with handles, tokens }
        unless ← accept .documentStart do malformed
        content fuel
  else node fuel .block

/-- Read what follows the only document. -/
def finish : Nat → Reading Unit
  | 0 => malformed
  | fuel + 1 => do
      if ← accept .documentEnd then finish fuel
      else if (← peek) != .streamEnd then malformed

/-- Read the only document of a stream, if there is one. -/
def document (fuel : Nat) : Reading (Option Nat) := do
  if (← peek) == .streamEnd then return none
  let number ← root fuel
  finish fuel
  return some number

end Grammar

/-- The graph of the only document of a stream and its root; an empty stream has none. -/
def Graph.ofTokens (stream : TokenStream) : Except Fault (Option (Graph × Nat)) := do
  let fuel := 3 * stream.tokens.length + 3
  let start : DocumentState :=
    { tokens := stream.tokens, failure := stream.failure, handles := Grammar.standardHandles }
  let (root, state) ← (Grammar.document fuel).run start
  .ok (root.map fun number => (⟨state.nodes⟩, number))

end Stylesheet.Yaml
