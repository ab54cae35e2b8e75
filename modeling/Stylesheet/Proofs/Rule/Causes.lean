import Stylesheet.Proofs.Rule.FontSize
import Stylesheet.Proofs.Rule.Parts

/-!
# What is recorded while values are read, and why

Every diagnostic of the reading of a node has a cause in some node that is reached: an expression
literal that does not compile, a size that cannot be found, a colour that is none, or branches of
different kinds.  It names the rule that is read.  When the reading succeeds, all causes are
recorded.
-/

namespace Stylesheet

open Logged

namespace RuleContext

/-- The diagnostic for a size that is no numeral. -/
def noNumber (context : RuleContext) (text : String) : Diagnostic where
  code := .invalidNumber
  message := s!"'{text}' is not a number"
  rule := context.key

/-- The diagnostic for a colour that is none. -/
def noColor (context : RuleContext) (text : String) : Diagnostic where
  code := .invalidColor
  message := s!"{Color.refusal text}; using black"
  rule := context.key

end RuleContext

namespace Node

/-- `node.Writes body`: a node writes an expression literal with a body, as its text, as the size of
a font or as a condition. -/
inductive Writes : Node → String → Prop where
  | text {text body : String} (hbody : Literal.body? text = some body) :
      Writes (.scalar (.text text)) body
  | size {text body : String} (hsize : Literal.SizedBy text body) :
      Writes (.scalar (.text text)) body
  | condition {pairs : List (Node × Node)} {pair : Node × Node} {source body : String}
      (hpair : pair ∈ pairs) (hcondition : pair.1.condition? = some (source, body)) :
      Writes (.mapping pairs) body

/-- `node.Causes context d`: a node by itself is the cause of a diagnostic. -/
inductive Causes (context : RuleContext) : Node → Diagnostic → Prop where
  /-- It writes an expression literal that does not compile. -/
  | compiling {node : Node} {body : String} {error : CompileError} (hwrites : node.Writes body)
      (herror : Expr.ofText body = .error error) :
      Causes context node ((Expression.compile body).compileFailure error context.key)
  /-- It is a font, and the expression that is its size has no value. -/
  | evaluating {text body : String} {d : Diagnostic} (hsize : Literal.SizedBy text body)
      (hfails : (Expression.compile body).failure? context.provider context.key = some d) :
      Causes context (.scalar (.text text)) d
  /-- It is a font, and its size is neither an expression nor a numeral. -/
  | size {text family size : String} (hbody : Literal.body? text = none)
      (hfont : Literal.isCallOf Literal.fontMark text = true)
      (harguments : Literal.callArguments Literal.fontMark text = [family, size])
      (hplain : Literal.body? size = none) (hnone : Decimal.takeNumeral? size.toList = none) :
      Causes context (.scalar (.text text)) (context.noNumber size)
  /-- It is the call of a colour that is none. -/
  | color {text argument : String} (hbody : Literal.body? text = none)
      (hfont : Literal.isCallOf Literal.fontMark text = false)
      (hcolor : Literal.isCallOf Literal.colorMark text = true)
      (harguments : Literal.callArguments Literal.colorMark text = [argument])
      (hnone : Color.ofText? (Literal.unquote argument) = none) :
      Causes context (.scalar (.text text)) (context.noColor (Literal.unquote argument))
  /-- It is a mapping, and the first leaves of its values are of different kinds. -/
  | kinds {pairs : List (Node × Node)} {kinds : List Kind}
      (hkinds : pairs.map (fun pair => pair.2.firstLeaf.leafKind?) = kinds.map some)
      (hmixed : ¬ ∀ kind ∈ kinds, kind = kinds.headD .undefined) :
      Causes context (.mapping pairs) (mixedKinds kinds context.key)

/-- A diagnostic names the rule that is read. -/
theorem Causes.rule_eq {context : RuleContext} {node : Node} {d : Diagnostic}
    (hcauses : node.Causes context d) : d.rule = context.key := by
  cases hcauses with
  | evaluating hsize hfails =>
      obtain ⟨reason, -, rfl⟩ := Expression.failure?_eq_some_iff.mp hfails
      rfl
  | compiling | size | color | kinds => rfl

/-- Only an expression literal that does not compile is recorded as such. -/
theorem Causes.exists_writes_of_code {context : RuleContext} {node : Node} {d : Diagnostic}
    (hcauses : node.Causes context d) (hcode : d.code = .compileFailed) :
    ∃ body error, node.Writes body ∧ Expr.ofText body = .error error ∧
      d = (Expression.compile body).compileFailure error context.key := by
  cases hcauses with
  | compiling hwrites herror => exact ⟨_, _, hwrites, herror, rfl⟩
  | evaluating hsize hfails =>
      obtain ⟨reason, -, rfl⟩ := Expression.failure?_eq_some_iff.mp hfails
      cases hcode
  | size | color | kinds => cases hcode

end Node

namespace RuleContext

variable {ε : Type} {context : RuleContext} {d : Diagnostic}

theorem mem_diagnostics_fontSize_iff {text : String} :
    d ∈ (context.fontSize text : Logged Event ε Float).diagnostics ↔
      (∃ body, Literal.body? text = some body ∧
        ((∃ error, Expr.ofText body = .error error ∧
            d = (Expression.compile body).compileFailure error context.key) ∨
          (Expression.compile body).failure? context.provider context.key = some d)) ∨
      Literal.body? text = none ∧ Decimal.takeNumeral? text.toList = none ∧
        d = context.noNumber text := by
  unfold fontSize
  cases hbody : Literal.body? text with
  | some body =>
      simp only [mem_diagnostics_bind_iff, Expression.mem_diagnostics_compileReporting_iff,
        Expression.outcome_compileReporting, Expression.diagnostics_evaluate, Option.mem_toList,
        Except.ok.injEq, exists_eq_left', Option.some.injEq, reduceCtorEq, false_and, or_false]
  | none =>
      cases hnumeral : Decimal.takeNumeral? text.toList with
      | some numeral => simp
      | none =>
          dsimp only
          rw [diagnostics_bind_pure]
          simp [noNumber]

theorem diagnostics_parseText_of_body {text body : String}
    (hbody : Literal.body? text = some body) :
    (context.parseText text).diagnostics
      = (Expression.compileReporting body context.key : RuleReading Expression).diagnostics := by
  simp only [parseText, hbody]
  exact diagnostics_bind_pure _ _

theorem diagnostics_parseText_of_font {text family size : String}
    (hbody : Literal.body? text = none) (hfont : Literal.isCallOf Literal.fontMark text = true)
    (harguments : Literal.callArguments Literal.fontMark text = [family, size]) :
    (context.parseText text).diagnostics
      = (context.fontSize size : RuleReading Float).diagnostics := by
  simp only [parseText, hbody, hfont, harguments, if_true]
  exact diagnostics_bind_pure _ _

theorem diagnostics_parseText_of_noColor {text argument : String}
    (hbody : Literal.body? text = none) (hfont : Literal.isCallOf Literal.fontMark text = false)
    (hcolor : Literal.isCallOf Literal.colorMark text = true)
    (harguments : Literal.callArguments Literal.colorMark text = [argument])
    (hnone : Color.ofText? (Literal.unquote argument) = none) :
    (context.parseText text).diagnostics = [context.noColor (Literal.unquote argument)] := by
  simp only [parseText, hbody, hfont, hcolor, harguments, hnone, if_true, Bool.false_eq_true,
    if_false]
  exact diagnostics_bind_pure _ _

/-- What is recorded while a text is read has its cause in the text. -/
theorem causes_of_mem_diagnostics_parseText {text : String}
    (hd : d ∈ (context.parseText text).diagnostics) :
    (Node.scalar (.text text)).Causes context d := by
  refine parseText_cases (motive := fun reading => context.parseText text = reading →
    d ∈ reading.diagnostics → (Node.scalar (.text text)).Causes context d) context text
    ?expression ?font ?fontCount ?color ?badColor ?colorCount ?string rfl hd
  case expression =>
    intro body hbody hreading hd
    rw [← hreading, diagnostics_parseText_of_body hbody,
      Expression.mem_diagnostics_compileReporting_iff] at hd
    obtain ⟨error, herror, rfl⟩ := hd
    exact .compiling (.text hbody) herror
  case font =>
    intro hbody hfont family size harguments hreading hd
    rw [← hreading, diagnostics_parseText_of_font hbody hfont harguments,
      mem_diagnostics_fontSize_iff] at hd
    rcases hd with ⟨body, hsize, ⟨error, herror, rfl⟩ | hfails⟩ | ⟨hplain, hnone, rfl⟩
    · exact .compiling (.size ⟨hbody, hfont, family, size, harguments, hsize⟩) herror
    · exact .evaluating ⟨hbody, hfont, family, size, harguments, hsize⟩ hfails
    · exact .size hbody hfont harguments hplain hnone
  case badColor =>
    intro hbody hfont hcolor argument harguments hnone other _ hreading hd
    rw [← hreading, diagnostics_parseText_of_noColor hbody hfont hcolor harguments hnone,
      List.mem_singleton] at hd
    subst hd
    exact .color hbody hfont hcolor harguments hnone
  -- the other texts are read without a word
  case color => exact fun _ _ _ _ _ _ _ _ hd => nomatch hd
  case string => exact fun _ _ _ _ hd => nomatch hd
  case fontCount => exact fun _ _ _ _ hd => nomatch hd
  case colorCount => exact fun _ _ _ _ _ hd => nomatch hd

/-- What a text is the cause of is recorded while it is read. -/
theorem mem_diagnostics_parseText_of_causes {text : String}
    (hcauses : (Node.scalar (.text text)).Causes context d) :
    d ∈ (context.parseText text).diagnostics := by
  cases hcauses with
  | compiling hwrites herror =>
      cases hwrites with
      | text hbody =>
          rw [diagnostics_parseText_of_body hbody,
            Expression.mem_diagnostics_compileReporting_iff]
          exact ⟨_, herror, rfl⟩
      | size hsize =>
          obtain ⟨hbody, hfont, family, size, harguments, hsize⟩ := hsize
          rw [diagnostics_parseText_of_font hbody hfont harguments, mem_diagnostics_fontSize_iff]
          exact .inl ⟨_, hsize, .inl ⟨_, herror, rfl⟩⟩
  | evaluating hsize hfails =>
      obtain ⟨hbody, hfont, family, size, harguments, hsize⟩ := hsize
      rw [diagnostics_parseText_of_font hbody hfont harguments, mem_diagnostics_fontSize_iff]
      exact .inl ⟨_, hsize, .inr hfails⟩
  | size hbody hfont harguments hplain hnone =>
      rw [diagnostics_parseText_of_font hbody hfont harguments, mem_diagnostics_fontSize_iff]
      exact .inr ⟨hplain, hnone, rfl⟩
  | color hbody hfont hcolor harguments hnone =>
      rw [diagnostics_parseText_of_noColor hbody hfont hcolor harguments hnone]
      exact List.mem_singleton_self _

end RuleContext

namespace Value

variable {ε : Type} {context : RuleContext} {d : Diagnostic}

theorem mem_diagnostics_ofBranches_iff {key : Option String} {branches : List (Branch Value)} :
    d ∈ (ofBranches key branches : Logged Event ε Value).diagnostics ↔
      (¬ ∀ kind ∈ branches.map (·.value.kind), kind = firstKind branches) ∧
        d = mixedKinds (branches.map (·.value.kind)) key := by
  have hall : (branches.map (·.value.kind)).all (· == firstKind branches) = true ↔
      ∀ kind ∈ branches.map (·.value.kind), kind = firstKind branches := by
    simp
  rw [← hall]
  unfold ofBranches
  dsimp only
  rw [show (branches.map (·.value.kind)).headD .undefined = firstKind branches from rfl]
  split
  · next hsame => simp [hsame]
  · next hmixed =>
      rw [diagnostics_bind_pure, diagnostics_report, List.mem_singleton]
      exact (and_iff_right hmixed).symm

/-- What is recorded while a pair and more pairs are read: that of the value, then that of the
condition, then that of the others, as far as the reading comes. -/
theorem mem_diagnostics_branchesOfPairs_cons_iff {key node : Node} {rest : List (Node × Node)}
    {source body : String} (hcondition : key.condition? = some (source, body)) :
    d ∈ (branchesOfPairs context ((key, node) :: rest)).diagnostics ↔
      d ∈ (ofNode context node).diagnostics ∨
        (∃ value, (ofNode context node).outcome = .ok value) ∧
          ((∃ error, Expr.ofText body = .error error ∧
              d = (Expression.compile body).compileFailure error context.key) ∨
            d ∈ (branchesOfPairs context rest).diagnostics) := by
  rw [branchesOfPairs]
  simp only [hcondition, mem_diagnostics_bind_iff, diagnostics_bind_pure,
    Expression.mem_diagnostics_compileReporting_iff, Expression.outcome_compileReporting]
  simp

mutual

/-- Whatever is recorded while a node is read has its cause in a node that is reached. -/
theorem exists_causes_of_mem_diagnostics :
    ∀ {node : Node}, d ∈ (ofNode context node).diagnostics →
      ∃ inner, node.Reaches inner ∧ inner.Causes context d
  | .scalar (.text text), hd => by
      rw [ofNode] at hd
      exact ⟨_, .self _, RuleContext.causes_of_mem_diagnostics_parseText hd⟩
  | .scalar .null, hd | .scalar (.boolean _), hd | .scalar (.number _), hd => by
      rw [ofNode] at hd
      cases hd
  | .sequence items, hd => by
      rw [ofNode] at hd
      cases hd
  | .mapping pairs, hd => by
      rw [ofNode, mem_diagnostics_bind_iff] at hd
      rcases hd with hd | ⟨written, hwritten, hd⟩
      · rcases exists_causes_of_mem_branchesOfPairs hd with
          ⟨pair, hpair, inner, hreaches, hcauses⟩ |
          ⟨pair, hpair, source, body, error, hcondition, herror, rfl⟩
        · exact ⟨inner, .branch hpair hreaches, hcauses⟩
        · exact ⟨_, .self _, .compiling (.condition hpair hcondition) herror⟩
      · obtain ⟨hmixed, rfl⟩ := mem_diagnostics_ofBranches_iff.mp hd
        refine ⟨_, .self _, .kinds ?_ hmixed⟩
        rw [map_leafKind?_firstLeaf (branchesOfPairs_eq_ok_iff.mp hwritten), List.map_map]
        rfl

/-- Whatever is recorded while pairs are read has its cause in the value of a pair or in the
condition of one. -/
theorem exists_causes_of_mem_branchesOfPairs :
    ∀ {pairs : List (Node × Node)}, d ∈ (branchesOfPairs context pairs).diagnostics →
      (∃ pair ∈ pairs, ∃ inner, pair.2.Reaches inner ∧ inner.Causes context d) ∨
        ∃ pair ∈ pairs, ∃ source body error, pair.1.condition? = some (source, body) ∧
          Expr.ofText body = .error error ∧
          d = (Expression.compile body).compileFailure error context.key
  | [], hd => by
      rw [branchesOfPairs] at hd
      cases hd
  | (key, node) :: rest, hd => by
      cases hcondition : key.condition? with
      | none =>
          -- such a key ends the reading before anything is recorded for the pair
          rw [branchesOfPairs, hcondition] at hd
          cases hd
      | some written =>
          obtain ⟨source, body⟩ := written
          rw [mem_diagnostics_branchesOfPairs_cons_iff hcondition] at hd
          rcases hd with hd | ⟨-, ⟨error, herror, rfl⟩ | hd⟩
          · obtain ⟨inner, hreaches, hcauses⟩ := exists_causes_of_mem_diagnostics hd
            exact .inl ⟨(key, node), List.mem_cons_self, inner, hreaches, hcauses⟩
          · exact .inr ⟨(key, node), List.mem_cons_self, source, body, error, hcondition, herror,
              rfl⟩
          · rcases exists_causes_of_mem_branchesOfPairs hd with
              ⟨pair, hpair, hvalue⟩ | ⟨pair, hpair, hcompiling⟩
            · exact .inl ⟨pair, List.mem_cons_of_mem _ hpair, hvalue⟩
            · exact .inr ⟨pair, List.mem_cons_of_mem _ hpair, hcompiling⟩

end

/-- When pairs can be read, what is recorded of the value or of the condition of one of them is
recorded. -/
theorem mem_diagnostics_branchesOfPairs {pairs : List (Node × Node)} {written : List (Branch Value)}
    (hwritten : (branchesOfPairs context pairs).outcome = .ok written) {pair : Node × Node}
    (hpair : pair ∈ pairs)
    (hd : d ∈ (ofNode context pair.2).diagnostics ∨
      ∃ source body error, pair.1.condition? = some (source, body) ∧
        Expr.ofText body = .error error ∧
        d = (Expression.compile body).compileFailure error context.key) :
    d ∈ (branchesOfPairs context pairs).diagnostics := by
  induction pairs generalizing written with
  | nil => cases hpair
  | cons first rest ih =>
      obtain ⟨key, node⟩ := first
      obtain ⟨source, body, value, others, hcondition, hvalue, hothers, rfl⟩ :=
        branchesOfPairs_cons_eq_ok_iff.mp hwritten
      rw [mem_diagnostics_branchesOfPairs_cons_iff hcondition]
      rcases List.mem_cons.mp hpair with rfl | hpair
      · rcases hd with hd | ⟨_, _, error, hcondition', herror, rfl⟩
        · exact .inl hd
        · cases hcondition.symm.trans hcondition'
          exact .inr ⟨⟨value, hvalue⟩, .inl ⟨error, herror, rfl⟩⟩
      · exact .inr ⟨⟨value, hvalue⟩, .inr (ih hothers hpair)⟩

/-- When a node can be read, what it is the cause of is recorded. -/
theorem mem_diagnostics_of_causes {node : Node} {value : Value}
    (hvalue : (ofNode context node).outcome = .ok value) (hcauses : node.Causes context d) :
    d ∈ (ofNode context node).diagnostics := by
  cases node with
  | scalar scalar =>
      cases scalar with
      | text text =>
          rw [ofNode]
          exact RuleContext.mem_diagnostics_parseText_of_causes hcauses
      | null | boolean | number =>
          cases hcauses with
          | compiling hwrites herror => cases hwrites
  | sequence items =>
      cases hcauses with
      | compiling hwrites herror => cases hwrites
  | mapping pairs =>
      obtain ⟨written, hwritten, rfl⟩ := ofNode_mapping_eq_ok_iff.mp hvalue
      rw [ofNode, mem_diagnostics_bind_iff]
      cases hcauses with
      | compiling hwrites herror =>
          cases hwrites with
          | condition hpair hcondition =>
              exact .inl (mem_diagnostics_branchesOfPairs hwritten hpair
                (.inr ⟨_, _, _, hcondition, herror, rfl⟩))
      | @kinds _ kinds hkinds hmixed =>
          -- the kinds of the first leaves are those of the branches
          have hsame : kinds = written.map (·.value.kind) := by
            rw [map_leafKind?_firstLeaf (branchesOfPairs_eq_ok_iff.mp hwritten)] at hkinds
            apply List.map_injective_iff.mpr fun _ _ => Option.some.inj
            rw [← hkinds, List.map_map]
            rfl
          subst hsame
          exact .inr ⟨written, hwritten, mem_diagnostics_ofBranches_iff.mpr ⟨hmixed, rfl⟩⟩

/-- When a node can be read, the diagnostics are those that the nodes which it reaches are the
causes of. -/
theorem mem_diagnostics_ofNode_iff {node : Node} {value : Value}
    (hvalue : (ofNode context node).outcome = .ok value) :
    d ∈ (ofNode context node).diagnostics ↔
      ∃ inner, node.Reaches inner ∧ inner.Causes context d := by
  constructor
  · exact exists_causes_of_mem_diagnostics
  · rintro ⟨inner, hreaches, hcauses⟩
    induction hreaches generalizing value with
    | self node => exact mem_diagnostics_of_causes hvalue hcauses
    | branch hpair hreaches ih =>
        obtain ⟨written, hwritten, rfl⟩ := ofNode_mapping_eq_ok_iff.mp hvalue
        obtain ⟨branch, -, hread⟩ :=
          exists_mem_of_forall₂ (branchesOfPairs_eq_ok_iff.mp hwritten) hpair
        rw [ofNode, mem_diagnostics_bind_iff]
        exact .inl (mem_diagnostics_branchesOfPairs hwritten hpair (.inl (ih hread.value hcauses)))

/-- What is read as an expression is the literal of its body. -/
theorem exists_body_of_ofNode_eq_expression {node : Node} {e : Expression}
    (hvalue : (ofNode context node).outcome = .ok (.expression e)) :
    ∃ text body, node = .scalar (.text text) ∧ Literal.body? text = some body ∧
      e = Expression.compile body := by
  have hkind := leafKind?_firstLeaf hvalue
  cases node with
  | scalar scalar =>
      rw [ofNode] at hvalue
      cases scalar with
      | text text =>
          cases hbody : Literal.body? text with
          | none =>
              rw [Node.firstLeaf, Node.leafKind?, Option.some.injEq, Scalar.kind, hbody] at hkind
              simp only [Option.isSome_none, Bool.false_eq_true, if_false] at hkind
              split at hkind
              · cases hkind
              · split at hkind <;> cases hkind
          | some body =>
              simp only [RuleContext.parseScalar, RuleContext.parseText, hbody] at hvalue
              obtain ⟨_, hcompile, hvalue⟩ := outcome_bind_eq_ok_iff.mp hvalue
              rw [Expression.outcome_compileReporting] at hcompile
              cases hcompile
              cases hvalue
              exact ⟨text, body, rfl, hbody, rfl⟩
      | null | boolean | number => cases hvalue
  | sequence items =>
      rw [ofNode] at hvalue
      cases hvalue
  | mapping pairs =>
      obtain ⟨written, -, hconditional⟩ := ofNode_mapping_eq_ok_iff.mp hvalue
      cases hconditional

/-- Every expression in a value is written in a node that the value's node reaches. -/
theorem exists_writes_of_hasExpression {node : Node} {value : Value}
    (hvalue : (ofNode context node).outcome = .ok value) {e : Expression}
    (hexpression : value.HasExpression e) :
    ∃ inner body, node.Reaches inner ∧ inner.Writes body ∧ e = Expression.compile body := by
  cases hexpression with
  | value hpart =>
      obtain ⟨inner, hreaches, hinner⟩ := exists_reaches_of_hasPart hvalue hpart
      obtain ⟨text, body, rfl, hbody, rfl⟩ := exists_body_of_ofNode_eq_expression hinner
      exact ⟨_, body, hreaches, .text hbody, rfl⟩
  | condition hpart hbranch hcondition =>
      obtain ⟨inner, hreaches, hinner⟩ := exists_reaches_of_hasPart hvalue hpart
      obtain ⟨pairs, rfl, pair, hpair, hread⟩ := exists_readFrom_of_mem hinner hbranch
      obtain ⟨body, hbody, hcompiled⟩ := hread.condition
      exact ⟨_, body, hreaches,
        .condition hpair (Node.condition?_eq_some_iff.mpr ⟨hread.source, hbody⟩),
        hcondition.symm.trans hcompiled⟩

end Value

end Stylesheet
