import Stylesheet.Sheet
import Stylesheet.Yaml.Document

/-!
# Loading sheets from text
-/

namespace Stylesheet

namespace Node

mutual

/-- How many calls are open at once while a node is read as a rule's value: two for each level of
conditional values. -/
def readingCalls : Node → Nat
  | .mapping pairs => 2 + readingCallsOfPairs pairs
  | _ => 1

def readingCallsOfPairs : List (Node × Node) → Nat
  | [] => 0
  | (_, node) :: rest => max node.readingCalls (readingCallsOfPairs rest)

end

mutual

/-- How many calls are open at once while the rules of a node are read: one for each mapping that is
inherited from, and one for each rule besides those for its value. -/
def definingCalls : Node → Nat
  | .mapping pairs =>
      let entries := pairs.filter fun pair => pair.1.text? != some mergeKey
      1 + max (inheritedCalls pairs) (1 + readingCallsOfPairs entries)
  | _ => 0

def inheritedCalls : List (Node × Node) → Nat
  | [] => 0
  | (key, node) :: rest =>
      if key.text? = some mergeKey then node.definingCalls else inheritedCalls rest

end

/-- Whether a document is not nested beyond the limit.  Two calls are open around its styles. -/
def isShallow : Node → Bool
  | .mapping styles => styles.all fun style => style.2.definingCalls + 2 ≤ callLimit
  | _ => true

end Node

/-- Why a text is no sheet. -/
inductive LoadError where
  /-- The text is no document. -/
  | text (e : Yaml.Error)
  /-- The document is no sheet. -/
  | document (e : SheetError)
  /-- The document is nested beyond the limit. -/
  | tooDeep

/-- The message of an error that the text as a whole is to blame for. -/
def LoadError.message? : LoadError → Option String
  | text e => e.message?
  | document e => e.message?
  | tooDeep => none

namespace Sheet

/-- Load a sheet from a text that is read with a library for YAML.  Font sizes are computed for the
given provider. -/
def loadWith (library : Yaml.Library) (provider : Provider) (text : String) :
    Logged Event LoadError Sheet :=
  match library.read text with
  | .error e => Logged.fail (.text e)
  | .ok none => Logged.fail (.document .rootNotMapping)
  | .ok (some root) =>
      if root.isShallow then (ofNode provider root).mapError .document else Logged.fail .tooDeep

/-- Load a sheet from a text. -/
def load (provider : Provider) (text : String) : Logged Event LoadError Sheet :=
  loadWith .standard provider text

end Sheet

end Stylesheet
