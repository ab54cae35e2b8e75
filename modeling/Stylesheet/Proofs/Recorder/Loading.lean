import Stylesheet.Proofs.Recorder.Reading
import Stylesheet.Sheet.Load

/-!
# Loads that hand on a sink

Reading values, rules and sheets as it runs with a sink.
-/

namespace Stylesheet

open Logged

namespace Recorder

variable {ε : Type}

def compile (source : String) (rule : Option String) : Recorder ε Expression := do
  let e := Expression.compile source
  match e.tree with
  | .ok _ => return e
  | .error error =>
      record (e.compileFailure error rule)
      return e

theorem recorded_compileReporting (source : String) (rule : Option String) :
    (Expression.compileReporting source rule : Logged Event ε Expression).recorded
      = compile source rule := by
  unfold Expression.compileReporting compile
  generalize Expression.compile source = e
  dsimp only
  cases e.tree with
  | ok tree => exact recorded_pure e
  | error error => simp only [recorded_bind, recorded_report, recorded_pure]

section Values

variable (context : RuleContext)

def fontSize (text : String) : Recorder ε Float :=
  match Literal.body? text with
  | some body => do
      let e ← compile body context.key
      evaluate e context.provider context.key
  | none => match Decimal.takeNumeral? text.toList with
    | some (numeral, _) => return numeral.toFloat
    | none => do
        record
          { code := .invalidNumber, message := s!"'{text}' is not a number", rule := context.key }
        return 0

theorem recorded_fontSize (text : String) :
    (context.fontSize text : Logged Event ε Float).recorded = fontSize context text := by
  unfold RuleContext.fontSize fontSize
  cases Literal.body? text with
  | some body => simp only [recorded_bind, recorded_compileReporting, recorded_evaluate]
  | none =>
      cases Decimal.takeNumeral? text.toList with
      | some found => exact recorded_pure _
      | none => simp only [recorded_bind, recorded_report, recorded_pure]

def wrongCount {α : Type} (mark : String) (expected found : Nat) : Recorder RuleError α :=
  throw (.argumentCount ⟨mark, some expected, some found⟩)

def parseText (text : String) : Recorder RuleError Value :=
  match Literal.body? text with
  | some body => return .expression (← compile body context.key)
  | none =>
      if Literal.isCallOf Literal.fontMark text then
        match Literal.callArguments Literal.fontMark text with
        | [family, size] => do
            let points ← fontSize context size
            let kept := context.sizeKept? size
            return .plain (.font (RuleContext.fontOf (Literal.unquote family) points kept))
        | arguments => wrongCount Literal.fontMark 2 arguments.length
      else if Literal.isCallOf Literal.colorMark text then
        match Literal.callArguments Literal.colorMark text with
        | [argument] =>
            match Color.ofText? (Literal.unquote argument) with
            | some color => return .plain (.color color)
            | none => do
                record
                  { code := .invalidColor
                    message := s!"{Color.refusal (Literal.unquote argument)}; using black"
                    rule := context.key }
                return .plain (.color .black)
        | arguments => wrongCount Literal.colorMark 1 arguments.length
      else return .plain (.string text)

theorem recorded_parseText (text : String) :
    (context.parseText text).recorded = parseText context text := by
  unfold RuleContext.parseText parseText
  cases Literal.body? text with
  | some body => simp only [recorded_bind, recorded_compileReporting, recorded_pure]
  | none =>
      dsimp only
      cases Literal.isCallOf Literal.fontMark text with
      | true =>
          rw [if_pos rfl, if_pos rfl]
          rcases Literal.callArguments Literal.fontMark text with
            _ | ⟨family, _ | ⟨size, _ | ⟨more, rest⟩⟩⟩
          · exact recorded_fail _
          · exact recorded_fail _
          · simp only [recorded_bind, recorded_fontSize, recorded_pure]
          · exact recorded_fail _
      | false =>
          rw [if_neg Bool.false_ne_true, if_neg Bool.false_ne_true]
          cases Literal.isCallOf Literal.colorMark text with
          | true =>
              rw [if_pos rfl, if_pos rfl]
              rcases Literal.callArguments Literal.colorMark text with
                _ | ⟨argument, _ | ⟨more, rest⟩⟩
              · exact recorded_fail _
              · dsimp only
                cases Color.ofText? (Literal.unquote argument) with
                | some color => exact recorded_pure _
                | none => simp only [recorded_bind, recorded_report, recorded_pure]
              · exact recorded_fail _
          | false => exact recorded_pure _

def parseScalar : Scalar → Recorder RuleError Value
  | .null => return .undefined
  | .boolean b => return .plain (.boolean b)
  | .number n => return .plain (.number n)
  | .text s => parseText context s

theorem recorded_parseScalar (scalar : Scalar) :
    (context.parseScalar scalar).recorded = parseScalar context scalar := by
  cases scalar with
  | text s => exact recorded_parseText context s
  | null | boolean | number => exact recorded_pure _

/-- The conditional value of branches in the order in which they are written. -/
def ofBranches (key : Option String) (branches : List (Branch Value)) : Recorder ε Value := do
  let kinds := branches.map (·.value.kind)
  let kind := kinds.headD .undefined
  unless kinds.all (· == kind) do
    record (mixedKinds kinds key)
  return .conditional kind (storageOrder branches)

theorem recorded_ofBranches (key : Option String) (branches : List (Branch Value)) :
    (Value.ofBranches key branches : Logged Event ε Value).recorded
      = ofBranches key branches := by
  unfold Value.ofBranches ofBranches
  dsimp only
  split
  · exact recorded_pure _
  · simp only [recorded_bind, recorded_report, recorded_pure]

mutual

def valueOfNode : Node → Recorder RuleError Value
  | .scalar value => parseScalar context value
  | .sequence _ => return .undefined
  | .mapping pairs => do
      ofBranches context.key (← branchesOfPairs pairs)

/-- Read the branches of a conditional value, in the order in which they are written. -/
def branchesOfPairs : List (Node × Node) → Recorder RuleError (List (Branch Value))
  | [] => return []
  | (key, node) :: rest =>
      match key.condition? with
      | none => throw key.conditionError
      | some (source, body) => do
          let value ← valueOfNode node
          let condition ← compile body context.key
          let others ← branchesOfPairs rest
          return ⟨source, condition, value⟩ :: others

end

mutual

theorem recorded_valueOfNode :
    ∀ node : Node, (Value.ofNode context node).recorded = valueOfNode context node
  | .scalar value => by
      rw [Value.ofNode, valueOfNode, recorded_parseScalar]
  | .sequence _ => by
      rw [Value.ofNode, valueOfNode, recorded_pure]
  | .mapping pairs => by
      rw [Value.ofNode, valueOfNode, recorded_bind, recorded_branchesOfPairs pairs]
      simp only [recorded_ofBranches]

theorem recorded_branchesOfPairs : ∀ pairs : List (Node × Node),
    (Value.branchesOfPairs context pairs).recorded = branchesOfPairs context pairs
  | [] => by
      rw [Value.branchesOfPairs, branchesOfPairs, recorded_pure]
  | (key, node) :: rest => by
      have hnode := recorded_valueOfNode node
      have hrest := recorded_branchesOfPairs rest
      rw [Value.branchesOfPairs, branchesOfPairs]
      cases key.condition? with
      | none => exact recorded_fail _
      | some condition =>
          simp only [recorded_bind, hnode, recorded_compileReporting, hrest, recorded_pure]

end

end Values

section Sheets

variable (provider : Provider)

def ruleOfNode (key : String) (node : Node) : Recorder RuleError Rule := do
  return ⟨key, ← valueOfNode ⟨provider, some key⟩ node⟩

/-- Read the entries of a style into a table of rules; merge keys are no rules. -/
def addRules : List (Node × Node) → Table Rule → Recorder SheetError (Table Rule)
  | [], rules => return rules
  | (key, node) :: rest, rules =>
      match key.text? with
      | none => throw .ruleWithoutName
      | some name =>
          if name = mergeKey then addRules rest rules
          else do
            let rule ← (ruleOfNode provider name node).adapt .rule
            addRules rest (rules.insert name rule)

theorem recorded_addRules (pairs : List (Node × Node)) (rules : Table Rule) :
    (Stylesheet.addRules provider pairs rules).recorded = addRules provider pairs rules := by
  induction pairs generalizing rules with
  | nil => exact recorded_pure rules
  | cons entry rest ih =>
      obtain ⟨key, node⟩ := entry
      rw [Stylesheet.addRules, addRules]
      cases key.text? with
      | none => exact recorded_fail _
      | some name =>
          dsimp only
          split
          · exact ih rules
          · simp only [recorded_bind, recorded_mapError, Rule.ofNode, ruleOfNode,
              recorded_valueOfNode, recorded_pure, ih]

mutual

/-- The rules that the entries of a mapping inherit. -/
def inheritedRules (style : String) : List (Node × Node) → Recorder SheetError (Table Rule)
  | [] => return ∅
  | (key, node) :: rest =>
      if key.text? = some mergeKey then rulesOfBase style node else inheritedRules style rest

def rulesOfBase (style : String) : Node → Recorder SheetError (Table Rule)
  | .mapping pairs => do
      addRules provider pairs (← inheritedRules style pairs)
  | _ => throw (.baseNotMapping style)

end

mutual

theorem recorded_inheritedRules (style : String) : ∀ pairs : List (Node × Node),
    (Stylesheet.inheritedRules provider style pairs).recorded
      = inheritedRules provider style pairs
  | [] => by
      rw [Stylesheet.inheritedRules, inheritedRules, recorded_pure]
  | (key, node) :: rest => by
      have hnode := recorded_rulesOfBase style node
      have hrest := recorded_inheritedRules style rest
      rw [Stylesheet.inheritedRules, inheritedRules]
      split
      · exact hnode
      · exact hrest

theorem recorded_rulesOfBase (style : String) : ∀ node : Node,
    (Stylesheet.rulesOfBase provider style node).recorded = rulesOfBase provider style node
  | .mapping pairs => by
      rw [Stylesheet.rulesOfBase, rulesOfBase, recorded_bind, recorded_inheritedRules style pairs]
      simp only [recorded_addRules]
  | .scalar _ => by
      rw [Stylesheet.rulesOfBase, rulesOfBase, recorded_fail] <;> nofun
  | .sequence _ => by
      rw [Stylesheet.rulesOfBase, rulesOfBase, recorded_fail] <;> nofun

end

def rulesOfStyle (style : String) (pairs : List (Node × Node)) :
    Recorder SheetError (Table Rule) := do
  addRules provider pairs (← inheritedRules provider style pairs)

def addStyles :
    List (Node × Node) → Table (Table Rule) → Recorder SheetError (Table (Table Rule))
  | [], styles => return styles
  | (key, .mapping pairs) :: rest, styles =>
      match key.text? with
      | none => throw .styleNotMapping
      | some style => do
          let rules ← rulesOfStyle provider style pairs
          addStyles rest (styles.insert style rules)
  | _ :: _, _ => throw .styleNotMapping

theorem recorded_addStyles (pairs : List (Node × Node)) (styles : Table (Table Rule)) :
    (Sheet.addStyles provider pairs styles).recorded = addStyles provider pairs styles := by
  induction pairs generalizing styles with
  | nil => exact recorded_pure styles
  | cons style rest ih =>
      obtain ⟨key, node⟩ := style
      cases node with
      | scalar | sequence => exact recorded_fail _
      | mapping entries =>
          rw [Sheet.addStyles, addStyles]
          cases key.text? with
          | none => exact recorded_fail _
          | some name =>
              simp only [Stylesheet.rulesOfStyle, rulesOfStyle, recorded_bind,
                recorded_inheritedRules, recorded_addRules, ih]

def sheetOfNode : Node → Recorder SheetError Sheet
  | .mapping pairs => do return ⟨← addStyles provider pairs ∅⟩
  | _ => throw .rootNotMapping

theorem recorded_sheetOfNode (root : Node) :
    (Sheet.ofNode provider root).recorded = sheetOfNode provider root := by
  cases root with
  | scalar | sequence => exact recorded_fail _
  | mapping pairs =>
      simp only [Sheet.ofNode, sheetOfNode, recorded_bind, recorded_addStyles, recorded_pure]

def load (library : Yaml.Library) (text : String) : Recorder LoadError Sheet :=
  match library.read text with
  | .error e => throw (.text e)
  | .ok none => throw (.document .rootNotMapping)
  | .ok (some root) =>
      if root.isShallow then (sheetOfNode provider root).adapt .document else throw .tooDeep

theorem recorded_load (library : Yaml.Library) (text : String) :
    (Sheet.loadWith library provider text).recorded = load provider library text := by
  unfold Sheet.loadWith load
  rcases library.read text with e | root?
  · exact recorded_fail _
  · cases root? with
    | none => exact recorded_fail _
    | some root =>
        dsimp only
        split
        · rw [recorded_mapError, recorded_sheetOfNode]
        · exact recorded_fail _

end Sheets

end Recorder

end Stylesheet
