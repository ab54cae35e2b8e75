import Stylesheet.Proofs.Expression
import Stylesheet.Rule.Parse

/-!
# Reading rule values, step by step

What each step of the reading of a rule's value gives when it succeeds, and which diagnostics it
records on the way.
-/

namespace Stylesheet

open Logged

namespace RuleContext

variable {ε : Type} {context : RuleContext}

/-- Any text has a font size. -/
theorem outcome_fontSize (context : RuleContext) (text : String) :
    ∃ size, (context.fontSize text : Logged Event ε Float).outcome = .ok size := by
  unfold fontSize
  cases Literal.body? text with
  | some body =>
      obtain ⟨size, hsize, -⟩ := Expression.outcome_evaluate (ε := ε)
        (Expression.compile body) context.provider context.key
      exact ⟨size, outcome_bind_eq_ok_iff.mpr
        ⟨_, Expression.outcome_compileReporting body context.key, hsize⟩⟩
  | none =>
      cases Decimal.takeNumeral? text.toList with
      | some numeral => exact ⟨_, rfl⟩
      | none => exact ⟨_, rfl⟩

/-- A font size is found without a word about kinds. -/
theorem avoids_fontSize (context : RuleContext) (text : String) :
    (context.fontSize text : Logged Event ε Float).Avoids .heterogeneousConditional := by
  unfold fontSize
  cases Literal.body? text with
  | some body =>
      simp only
      rw [avoids_bind_iff (Expression.outcome_compileReporting body context.key)]
      exact ⟨Expression.avoids_compileReporting body context.key (by decide),
        Expression.avoids_evaluate _ _ _ (by decide)⟩
  | none =>
      cases Decimal.takeNumeral? text.toList with
      | some numeral => exact avoids_pure _ _
      | none =>
          simp only
          rw [avoids_bind_iff (outcome_report _), avoids_report_iff]
          exact ⟨nofun, avoids_pure _ _⟩

/-- The ways in which a text is read, each with what the text has to be like. -/
theorem parseText_cases {motive : RuleReading Value → Prop} (context : RuleContext) (text : String)
    (expression : ∀ body, Literal.body? text = some body →
      motive (do return .expression (← Expression.compileReporting body context.key)))
    (font : Literal.body? text = none → Literal.isCallOf Literal.fontMark text = true →
      ∀ family size, Literal.callArguments Literal.fontMark text = [family, size] →
      motive (do
        let points ← context.fontSize size
        let kept := context.sizeKept? size
        return .plain (.font (fontOf (Literal.unquote family) points kept))))
    (fontCount : Literal.body? text = none → Literal.isCallOf Literal.fontMark text = true →
      (Literal.callArguments Literal.fontMark text).length ≠ 2 →
      motive (wrongCount Literal.fontMark 2 (Literal.callArguments Literal.fontMark text).length))
    (color : Literal.body? text = none → Literal.isCallOf Literal.fontMark text = false →
      Literal.isCallOf Literal.colorMark text = true →
      ∀ argument, Literal.callArguments Literal.colorMark text = [argument] →
      ∀ color, Color.ofText? (Literal.unquote argument) = some color →
      motive (return .plain (.color color)))
    (badColor : Literal.body? text = none → Literal.isCallOf Literal.fontMark text = false →
      Literal.isCallOf Literal.colorMark text = true →
      ∀ argument, Literal.callArguments Literal.colorMark text = [argument] →
      Color.ofText? (Literal.unquote argument) = none →
      ∀ d : Diagnostic, d.code = .invalidColor →
      motive (do
        report d
        return .plain (.color .black)))
    (colorCount : Literal.body? text = none → Literal.isCallOf Literal.fontMark text = false →
      Literal.isCallOf Literal.colorMark text = true →
      (Literal.callArguments Literal.colorMark text).length ≠ 1 →
      motive (wrongCount Literal.colorMark 1 (Literal.callArguments Literal.colorMark text).length))
    (string : Literal.body? text = none → Literal.isCallOf Literal.fontMark text = false →
      Literal.isCallOf Literal.colorMark text = false → motive (return .plain (.string text))) :
    motive (context.parseText text) := by
  unfold parseText
  cases hbody : Literal.body? text with
  | some body => exact expression body hbody
  | none =>
      dsimp only
      cases hfont : Literal.isCallOf Literal.fontMark text with
      | true =>
          rw [if_pos rfl]
          split
          · next family size harguments => exact font hbody hfont family size harguments
          · next harguments =>
              refine fontCount hbody hfont fun hlength => ?_
              exact harguments _ _ (List.eq_getElem_of_length_eq_two _ hlength)
      | false =>
          rw [if_neg Bool.false_ne_true]
          cases hcolor : Literal.isCallOf Literal.colorMark text with
          | true =>
              rw [if_pos rfl]
              split
              · next argument harguments =>
                  split
                  · next c hof => exact color hbody hfont hcolor argument harguments c hof
                  · next hof => exact badColor hbody hfont hcolor argument harguments hof _ rfl
              · next harguments =>
                  refine colorCount hbody hfont hcolor fun hlength => ?_
                  obtain ⟨argument, hsingle⟩ := List.length_eq_one_iff.mp hlength
                  exact harguments argument hsingle
          | false => exact string hbody hfont hcolor

end RuleContext

theorem Node.condition?_text {source body : String} (hbody : Literal.body? source = some body) :
    (Node.scalar (.text source)).condition? = some (source, body) := by
  simp only [Node.condition?, Node.text?, Option.bind_eq_bind, Option.bind_some, hbody]
  rfl

namespace Value

variable {ε : Type}

/-- The kind of the first branch that is written; without branches there is none. -/
def firstKind (branches : List (Branch Value)) : Kind :=
  (branches.map (·.value.kind)).headD .undefined

/-- Branches of any kinds make a conditional value, of the kind of the first one written. -/
theorem outcome_ofBranches (key : Option String) (branches : List (Branch Value)) :
    (ofBranches key branches : Logged Event ε Value).outcome
      = .ok (.conditional (firstKind branches) (storageOrder branches)) := by
  unfold ofBranches
  dsimp only
  split <;> rfl

/-- Mixed kinds are recorded when a branch is not of the kind of the first. -/
theorem avoids_ofBranches_iff {key : Option String} {branches : List (Branch Value)} :
    (ofBranches key branches : Logged Event ε Value).Avoids .heterogeneousConditional ↔
      ∀ branch ∈ branches, branch.value.kind = firstKind branches := by
  have hall : ((branches.map (·.value.kind)).all (· == firstKind branches)) = true ↔
      ∀ branch ∈ branches, branch.value.kind = firstKind branches := by
    simp
  rw [← hall]
  unfold ofBranches
  dsimp only
  rw [show (branches.map (·.value.kind)).headD .undefined = firstKind branches from rfl]
  split
  · next hsame => exact iff_of_true (avoids_pure _ _) hsame
  · next hmixed =>
      rw [avoids_bind_iff (outcome_report _), avoids_report_iff]
      exact iff_of_false (fun hboth => hboth.1 rfl) hmixed

variable {context : RuleContext}

theorem outcome_ofNode_number (n : Number) :
    (ofNode context (.scalar (.number n))).outcome = .ok (.plain (.number n)) := by
  rw [ofNode]
  rfl

theorem outcome_branchesOfPairs_nil : (branchesOfPairs context []).outcome = .ok [] := by
  rw [branchesOfPairs]
  rfl

/-- The branches of a pair and more pairs, when they can be read. -/
theorem branchesOfPairs_cons_eq_ok_iff {key node : Node} {rest : List (Node × Node)}
    {branches : List (Branch Value)} :
    (branchesOfPairs context ((key, node) :: rest)).outcome = .ok branches ↔
      ∃ source body value others,
        key.condition? = some (source, body) ∧ (ofNode context node).outcome = .ok value ∧
        (branchesOfPairs context rest).outcome = .ok others ∧
        branches = ⟨source, Expression.compile body, value⟩ :: others := by
  rw [branchesOfPairs]
  cases hcondition : key.condition? with
  | none => simp [Logged.fail]
  | some condition =>
      obtain ⟨source, body⟩ := condition
      constructor
      · intro hbranches
        obtain ⟨value, hvalue, hbranches⟩ := outcome_bind_eq_ok_iff.mp hbranches
        obtain ⟨condition, hcompile, hbranches⟩ := outcome_bind_eq_ok_iff.mp hbranches
        obtain ⟨others, hothers, hbranches⟩ := outcome_bind_eq_ok_iff.mp hbranches
        rw [Expression.outcome_compileReporting] at hcompile
        cases hcompile
        cases hbranches
        exact ⟨source, body, value, others, rfl, hvalue, hothers, rfl⟩
      · rintro ⟨source', body', value, others, hcondition', hvalue, hothers, rfl⟩
        cases hcondition'
        exact outcome_bind_eq_ok_iff.mpr ⟨value, hvalue, outcome_bind_eq_ok_iff.mpr
          ⟨_, Expression.outcome_compileReporting body context.key,
            outcome_bind_eq_ok_iff.mpr ⟨others, hothers, rfl⟩⟩⟩

/-- Reading pairs in two parts gives the branches of both. -/
theorem branchesOfPairs_append_eq_ok_iff {before after : List (Node × Node)}
    {branches : List (Branch Value)} :
    (branchesOfPairs context (before ++ after)).outcome = .ok branches ↔
      ∃ earlier later, (branchesOfPairs context before).outcome = .ok earlier ∧
        (branchesOfPairs context after).outcome = .ok later ∧ branches = earlier ++ later := by
  induction before generalizing branches with
  | nil => simp [branchesOfPairs]
  | cons pair before ih =>
      obtain ⟨key, node⟩ := pair
      rw [List.cons_append, branchesOfPairs_cons_eq_ok_iff]
      constructor
      · rintro ⟨source, body, value, others, hcondition, hvalue, hothers, rfl⟩
        obtain ⟨earlier, later, hearlier, hlater, rfl⟩ := ih.mp hothers
        exact ⟨_, later, branchesOfPairs_cons_eq_ok_iff.mpr
          ⟨source, body, value, earlier, hcondition, hvalue, hearlier, rfl⟩, hlater, rfl⟩
      · rintro ⟨_, later, hbefore, hlater, rfl⟩
        obtain ⟨source, body, value, earlier, hcondition, hvalue, hearlier, rfl⟩ :=
          branchesOfPairs_cons_eq_ok_iff.mp hbefore
        exact ⟨source, body, value, earlier ++ later, hcondition, hvalue,
          ih.mpr ⟨earlier, later, hearlier, hlater, rfl⟩, rfl⟩

/-- Reading a pair and more pairs says nothing of mixed kinds when reading the value and reading the
other pairs do not. -/
theorem avoids_branchesOfPairs_cons_iff {key node : Node} {rest : List (Node × Node)}
    {source body : String} {value : Value} {others : List (Branch Value)}
    (hcondition : key.condition? = some (source, body))
    (hvalue : (ofNode context node).outcome = .ok value)
    (hothers : (branchesOfPairs context rest).outcome = .ok others) :
    (branchesOfPairs context ((key, node) :: rest)).Avoids .heterogeneousConditional ↔
      (ofNode context node).Avoids .heterogeneousConditional ∧
        (branchesOfPairs context rest).Avoids .heterogeneousConditional := by
  rw [branchesOfPairs]
  simp only [hcondition]
  rw [avoids_bind_iff hvalue,
    avoids_bind_iff (Expression.outcome_compileReporting body context.key),
    avoids_bind_iff hothers]
  constructor
  · rintro ⟨hvalue, hcompile, hothers, hpure⟩
    exact ⟨hvalue, hothers⟩
  · rintro ⟨hvalue, hothers⟩
    exact ⟨hvalue, Expression.avoids_compileReporting body context.key (by decide), hothers,
      avoids_pure _ _⟩

/-- A conditional value that can be read is made of branches that can be read. -/
theorem ofNode_mapping_eq_ok_iff {pairs : List (Node × Node)} {value : Value} :
    (ofNode context (.mapping pairs)).outcome = .ok value ↔
      ∃ branches, (branchesOfPairs context pairs).outcome = .ok branches ∧
        value = .conditional (firstKind branches) (storageOrder branches) := by
  rw [ofNode, outcome_bind_eq_ok_iff]
  constructor
  · rintro ⟨branches, hbranches, hvalue⟩
    rw [outcome_ofBranches] at hvalue
    cases hvalue
    exact ⟨branches, hbranches, rfl⟩
  · rintro ⟨branches, hbranches, rfl⟩
    exact ⟨branches, hbranches, outcome_ofBranches context.key branches⟩

/-- A mapping can be read when its keys are conditions and its values can be read. -/
theorem exists_outcome_ofNode_mapping {pairs : List (Node × Node)}
    (hkeys : ∀ pair ∈ pairs, pair.1.condition?.isSome = true)
    (hvalues : ∀ pair ∈ pairs, ∃ value, (ofNode context pair.2).outcome = .ok value) :
    ∃ value, (ofNode context (.mapping pairs)).outcome = .ok value := by
  have hbranches : ∃ branches, (branchesOfPairs context pairs).outcome = .ok branches := by
    induction pairs with
    | nil => exact ⟨[], outcome_branchesOfPairs_nil⟩
    | cons pair rest ih =>
        rw [List.forall_mem_cons] at hkeys hvalues
        obtain ⟨others, hothers⟩ := ih hkeys.2 hvalues.2
        obtain ⟨value, hvalue⟩ := hvalues.1
        obtain ⟨⟨source, body⟩, hcondition⟩ := Option.isSome_iff_exists.mp hkeys.1
        exact ⟨_, branchesOfPairs_cons_eq_ok_iff.mpr
          ⟨source, body, value, others, hcondition, hvalue, hothers, rfl⟩⟩
  obtain ⟨branches, hbranches⟩ := hbranches
  exact ⟨_, ofNode_mapping_eq_ok_iff.mpr ⟨branches, hbranches, rfl⟩⟩

/-- Reading a conditional value says nothing of mixed kinds when reading its branches does not and
they are of the kind of the first. -/
theorem avoids_ofNode_mapping_iff {pairs : List (Node × Node)} {branches : List (Branch Value)}
    (hbranches : (branchesOfPairs context pairs).outcome = .ok branches) :
    (ofNode context (.mapping pairs)).Avoids .heterogeneousConditional ↔
      (branchesOfPairs context pairs).Avoids .heterogeneousConditional ∧
        ∀ branch ∈ branches, branch.value.kind = firstKind branches := by
  rw [ofNode, avoids_bind_iff hbranches, avoids_ofBranches_iff]

end Value

/-- Branches are stored in another order, but none is lost or added. -/
theorem mem_storageOrder_iff {α : Type} {branches : List (Branch α)} {branch : Branch α} :
    branch ∈ storageOrder branches ↔ branch ∈ branches := by
  unfold storageOrder
  cases hfallback : branch.isFallback <;> simp [hfallback]

end Stylesheet
