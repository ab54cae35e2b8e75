import Stylesheet.Rule.Parse
import Stylesheet.Rule.Read
import Stylesheet.Table

/-!
# Style sheets

A sheet binds style names to tables of rules.  A style inherits the rules of the mapping under its
first merge key, which may inherit in turn: inherited rules keep their places, and a rule of the
style itself replaces an inherited one of the same name.
-/

namespace Stylesheet

/-- Why a document is no sheet. -/
inductive SheetError where
  | rootNotMapping
  /-- A style is no mapping or has no name. -/
  | styleNotMapping
  /-- The merge key of a style, or of a mapping that it inherits from, holds no mapping. -/
  | baseNotMapping (style : String)
  /-- The key of a rule is no text. -/
  | ruleWithoutName
  | rule (e : RuleError)

def SheetError.message? : SheetError → Option String
  | rootNotMapping => some "The root node should be a map."
  | styleNotMapping => some "Definitions should be maps."
  | baseNotMapping style => some s!"Style '{style}' inherits from a value that is not a map."
  | ruleWithoutName => some "Invalid rule key."
  | rule e => e.message?

/-- Loading of a sheet: diagnostics are recorded on the way and stay when it fails. -/
abbrev Loading (α : Type) : Type :=
  Logged Event SheetError α

/-- Read the entries of a style into a table of rules; merge keys are no rules. -/
def addRules (provider : Provider) :
    List (Node × Node) → Table Rule → Loading (Table Rule)
  | [], rules => return rules
  | (key, node) :: rest, rules =>
      match key.text? with
      | none => Logged.fail .ruleWithoutName
      | some name =>
          if name = mergeKey then addRules provider rest rules
          else do
            let rule ← (Rule.ofNode provider name node).mapError .rule
            addRules provider rest (rules.insert name rule)

mutual

/-- The rules that the entries of a mapping inherit: those of the mapping under the first merge
key. -/
def inheritedRules (provider : Provider) (style : String) :
    List (Node × Node) → Loading (Table Rule)
  | [] => return ∅
  | (key, node) :: rest =>
      if key.text? = some mergeKey then rulesOfBase provider style node
      else inheritedRules provider style rest

/-- The rules of a mapping that is inherited from: those that it inherits, then its own. -/
def rulesOfBase (provider : Provider) (style : String) : Node → Loading (Table Rule)
  | .mapping pairs => do
      addRules provider pairs (← inheritedRules provider style pairs)
  | _ => Logged.fail (.baseNotMapping style)

end

/-- The rules of a style: those that it inherits, then its own. -/
def rulesOfStyle (provider : Provider) (style : String) (pairs : List (Node × Node)) :
    Loading (Table Rule) := do
  addRules provider pairs (← inheritedRules provider style pairs)

/-- Styles with their rules. -/
structure Sheet where
  styles : Table (Table Rule)

namespace Sheet

def empty : Sheet := ⟨∅⟩

/-- Read the styles of a document into a table; a later style of one name replaces an earlier. -/
def addStyles (provider : Provider) :
    List (Node × Node) → Table (Table Rule) → Loading (Table (Table Rule))
  | [], styles => return styles
  | (key, .mapping pairs) :: rest, styles =>
      match key.text? with
      | none => Logged.fail .styleNotMapping
      | some style => do
          let rules ← rulesOfStyle provider style pairs
          addStyles provider rest (styles.insert style rules)
  | _ :: _, _ => Logged.fail .styleNotMapping

/-- Load a sheet from a document.  Font sizes are computed for the given provider. -/
def ofNode (provider : Provider) : Node → Loading Sheet
  | .mapping pairs => do return ⟨← addStyles provider pairs ∅⟩
  | _ => Logged.fail .rootNotMapping

def rules (sheet : Sheet) (style : String) : Table Rule :=
  (sheet.styles.find? style).getD ∅

def rule? (sheet : Sheet) (style name : String) : Option Rule :=
  (sheet.rules style).find? name

def size (sheet : Sheet) : Nat :=
  sheet.styles.size

/-- Whether two sheets have the same styles with equal rules, in whatever order. -/
def same (a b : Sheet) : Bool :=
  a.styles.agree (Table.agree Rule.same) b.styles

def unknownRule (style name : String) : Diagnostic where
  code := .unknownRule
  message := s!"No rule '{name}' in style '{style}'"
  rule := some name

variable {α : Type}

/-- Read a rule of a style; without a value there is a diagnostic. -/
def read? (sheet : Sheet) (accessor : Accessor α) (provider : Provider) (style name : String) :
    Logged Event ReadError (Option α) :=
  match sheet.rule? style name with
  | some rule => accessor.read? provider rule
  | none => do
      report (unknownRule style name)
      return none

/-- Read a rule of a style, with a default in place of a missing value. -/
def read (sheet : Sheet) (accessor : Accessor α) (provider : Provider) (style name : String)
    (default : α) : Logged Event ReadError α := do
  return (← sheet.read? accessor provider style name).getD default

end Sheet

end Stylesheet
