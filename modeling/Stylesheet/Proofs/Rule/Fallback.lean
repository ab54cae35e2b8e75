import Stylesheet.Environment.Snapshot
import Stylesheet.Proofs.Rule.Reading
import Stylesheet.Proofs.Rule.Selection

/-!
# The fallback as the last resort

A fallback is meant to be taken when nothing else is left.  Branches that do not mention its name
are tried before it, wherever they are written.  Those that mention the name among other things are
tried after it when they are written after it, and then the fallback is taken in their place.
-/

namespace Stylesheet

open Logged

def fallbackText : String := "$\x7bdefault\x7d"

def Node.fallbackKey : Node := .scalar (.text fallbackText)

theorem Node.condition?_fallbackKey :
    fallbackKey.condition? = some (fallbackText, Constants.fallback) :=
  Node.condition?_text (by decide)

/-- The condition of a fallback holds whatever the provider answers. -/
theorem Expression.holds_fallback (provider : Provider) :
    (compile Constants.fallback).holds provider = true := by
  have htree : (compile Constants.fallback).tree = .ok (.name Constants.fallback) := rfl
  simp only [holds, attempt, htree]
  rfl

/-- The branches that are tried before a fallback, of those that are written before and after
it. -/
def triedBefore (earlier later : List (Branch Value)) : List (Branch Value) :=
  ((earlier ++ later).filter (!·.isFallback)).reverse ++ earlier.filter (·.isFallback)

theorem isFallback_of_source_eq {α : Type} {branch : Branch α}
    (hsource : branch.source = fallbackText) : branch.isFallback = true := by
  unfold Branch.isFallback
  rw [hsource]
  decide

theorem storageOrder_append_cons {earlier later : List (Branch Value)} {fallback : Branch Value}
    (hfallback : fallback.isFallback = true) :
    storageOrder (earlier ++ fallback :: later)
      = triedBefore earlier later ++ fallback :: later.filter (·.isFallback) := by
  simp [storageOrder, triedBefore, hfallback]

theorem mem_triedBefore_iff {earlier later : List (Branch Value)} {branch : Branch Value} :
    branch ∈ triedBefore earlier later ↔
      branch ∈ earlier ∨ branch ∈ later ∧ branch.isFallback = false := by
  unfold triedBefore
  cases hfallback : branch.isFallback with
  | true => simp [hfallback]
  | false => simp [hfallback, or_comm]

/-- A fallback is the last resort among the branches that are written before and after it: it is
taken only when the condition of each other branch with a value fails to hold, unless that is the
bare name of the fallback again. -/
def IsLastResort (provider : Provider) (earlier : List (Branch Value)) (fallback : Branch Value)
    (later : List (Branch Value)) : Prop :=
  Takes provider (triedBefore earlier later) fallback →
    ∀ other ∈ earlier ++ later, other.value.isUndefined = false →
      other.condition.source ≠ Constants.fallback → other.condition.holds provider = false

/-- A fallback displaces a later branch: it has a value, no branch that is tried before it opens,
and a later branch with a value has a condition that holds and mentions the fallback's name other
than as the bare name. -/
structure Displaces (provider : Provider) (earlier : List (Branch Value))
    (fallback : Branch Value) (later : List (Branch Value)) : Prop where
  hasValue : fallback.value.isUndefined = false
  passes : ∀ other ∈ triedBefore earlier later, other.opens provider = false
  displaced : ∃ other ∈ later, other.isFallback = true ∧ other.value.isUndefined = false ∧
    other.condition.source ≠ Constants.fallback ∧ other.condition.holds provider = true

/-- A fallback is the last resort unless it displaces a later branch. -/
theorem isLastResort_iff_not_displaces {provider : Provider} {earlier later : List (Branch Value)}
    {fallback : Branch Value} (hholds : fallback.condition.holds provider = true) :
    IsLastResort provider earlier fallback later ↔
      ¬ Displaces provider earlier fallback later := by
  constructor
  · intro hlast hdisplaces
    obtain ⟨other, hother, -, hvalue, hbare, hopen⟩ := hdisplaces.displaced
    have htakes : Takes provider (triedBefore earlier later) fallback :=
      ⟨hdisplaces.passes, by simp [Branch.opens, hdisplaces.hasValue, hholds]⟩
    have hfails := hlast htakes other (List.mem_append_right _ hother) hvalue hbare
    rw [hopen] at hfails
    cases hfails
  · intro hnot htakes other hother hvalue hbare
    apply Bool.eq_false_iff.mpr
    intro hopen
    have hopens : other.opens provider = true := by simp [Branch.opens, hvalue, hopen]
    -- the other branch opens, so it is none of those that are tried before the fallback
    have hafter : other ∉ triedBefore earlier later := by
      intro hbefore
      have hcloses := htakes.passes other hbefore
      rw [hopens] at hcloses
      cases hcloses
    rw [mem_triedBefore_iff, not_or, not_and, Bool.not_eq_false] at hafter
    have hlater : other ∈ later := (List.mem_append.mp hother).resolve_left hafter.1
    apply hnot
    refine ⟨?_, htakes.passes, other, hlater, hafter.2 hlater, hvalue, hbare, hopen⟩
    have hfallback := htakes.opens
    rw [Branch.opens, Bool.and_eq_true, Bool.not_eq_true'] at hfallback
    exact hfallback.1

variable {ε : Type} {context : RuleContext}

/-- A conditional value with a fallback anywhere: when the fallback is taken, the value resolves to
what the fallback's value does, and the fallback is the last resort exactly when it displaces no
later branch. -/
theorem isLastResort_iff {before after : List (Node × Node)} {node : Node} {value : Value}
    (hvalue : (Value.ofNode context
      (.mapping (before ++ (.fallbackKey, node) :: after))).outcome = .ok value)
    (provider : Provider) :
    ∃ kind earlier fallback later,
      value = .conditional kind
        (triedBefore earlier later ++ fallback :: later.filter (·.isFallback)) ∧
      (Value.branchesOfPairs context before).outcome = .ok earlier ∧
      (Value.branchesOfPairs context after).outcome = .ok later ∧
      (Value.ofNode context node).outcome = .ok fallback.value ∧
      fallback.source = fallbackText ∧
      (∀ rule, Takes provider (triedBefore earlier later) fallback →
        (value.resolve provider rule : Logged Event ε Resolution).outcome
          = (fallback.value.resolve provider rule).outcome) ∧
      (IsLastResort provider earlier fallback later ↔
        ¬ Displaces provider earlier fallback later) := by
  obtain ⟨branches, hbranches, rfl⟩ := Value.ofNode_mapping_eq_ok_iff.mp hvalue
  obtain ⟨earlier, rest, hearlier, hrest, rfl⟩ :=
    Value.branchesOfPairs_append_eq_ok_iff.mp hbranches
  obtain ⟨source, body, own, later, hcondition, hown, hlater, rfl⟩ :=
    Value.branchesOfPairs_cons_eq_ok_iff.mp hrest
  rw [Node.condition?_fallbackKey] at hcondition
  cases hcondition
  have hfallback : (⟨fallbackText, Expression.compile Constants.fallback, own⟩ :
      Branch Value).isFallback = true := isFallback_of_source_eq rfl
  refine ⟨_, earlier, _, later, by rw [storageOrder_append_cons hfallback], hearlier, hlater, hown,
    rfl, ?_, isLastResort_iff_not_displaces (Expression.holds_fallback provider)⟩
  intro rule htakes
  rw [Value.resolve, storageOrder_append_cons hfallback]
  exact htakes.outcome_resolveBranches _

/-- A condition that mentions the fallback's name within that of a variable. -/
def variableText : String := "$\x7bdefaultWidth > 0\x7d"

/-- The environment that knows the variable. -/
def wideEnvironment : Environment where
  named := Table.ofList [("defaultWidth", .integer 5)]

/-- One under the fallback, two under the variable. -/
def fallbackBeforeVariable : List (Node × Node) :=
  [(.fallbackKey, .scalar (.number (.integer 1))),
    (.scalar (.text variableText), .scalar (.number (.integer 2)))]

def fallbackBranch : Branch Value :=
  ⟨fallbackText, Expression.compile Constants.fallback, .plain (.number (.integer 1))⟩

def variableBranch : Branch Value :=
  ⟨variableText, Expression.compile "defaultWidth > 0", .plain (.number (.integer 2))⟩

theorem branchesOfPairs_fallbackBeforeVariable (context : RuleContext) :
    (Value.branchesOfPairs context fallbackBeforeVariable).outcome
      = .ok [fallbackBranch, variableBranch] := by
  have hbody : Literal.body? variableText = some "defaultWidth > 0" := by decide
  have hvariable : (Value.branchesOfPairs context
      [(.scalar (.text variableText), .scalar (.number (.integer 2)))]).outcome
      = .ok [variableBranch] :=
    Value.branchesOfPairs_cons_eq_ok_iff.mpr
      ⟨variableText, "defaultWidth > 0", _, [], Node.condition?_text hbody,
        Value.outcome_ofNode_number _, Value.outcome_branchesOfPairs_nil, rfl⟩
  exact Value.branchesOfPairs_cons_eq_ok_iff.mpr
    ⟨fallbackText, Constants.fallback, _, [variableBranch], Node.condition?_fallbackKey,
      Value.outcome_ofNode_number _, hvariable, rfl⟩

theorem takes_fallbackBranch (provider : Provider) :
    Takes provider (triedBefore [] [variableBranch]) fallbackBranch := by
  have hmentions : variableBranch.isFallback = true := by
    unfold Branch.isFallback
    decide
  refine ⟨fun other hother => ?_, ?_⟩
  · rcases mem_triedBefore_iff.mp hother with hearlier | ⟨hlater, hplain⟩
    · cases hearlier
    · rw [List.mem_singleton.mp hlater, hmentions] at hplain
      cases hplain
  · rw [Branch.opens, fallbackBranch, Expression.holds_fallback]
    rfl

/-- One is the result, from the fallback, although the condition of the variable holds. -/
theorem not_isLastResort_fallbackBranch :
    (Value.branchesOfPairs ⟨wideEnvironment.provider, none⟩ fallbackBeforeVariable).outcome
        = .ok [fallbackBranch, variableBranch] ∧
      (Value.resolveBranches wideEnvironment.provider none
        (storageOrder [fallbackBranch, variableBranch]) : Logged Event Empty Resolution).outcome
        = .ok (.value (.number (.integer 1))) ∧
      ¬ IsLastResort wideEnvironment.provider [] fallbackBranch [variableBranch] := by
  have htakes := takes_fallbackBranch wideEnvironment.provider
  refine ⟨branchesOfPairs_fallbackBeforeVariable _, ?_, fun hlast => ?_⟩
  · have hfallback : fallbackBranch.isFallback = true := isFallback_of_source_eq rfl
    have hstored := @storageOrder_append_cons [] [variableBranch] fallbackBranch hfallback
    rw [List.nil_append] at hstored
    rw [hstored, htakes.outcome_resolveBranches, fallbackBranch, Value.resolve]
    rfl
  · have hfails := hlast htakes variableBranch (List.mem_singleton_self _) rfl (by decide)
    have hholds : variableBranch.condition.holds wideEnvironment.provider = true := by
      decide +kernel
    rw [hholds] at hfails
    cases hfails

/-- The value that the fallback and the variable are read as. -/
theorem isLastResort_iff_fallbackBeforeVariable :
    ∃ value, (Value.ofNode ⟨wideEnvironment.provider, none⟩
        (.mapping fallbackBeforeVariable)).outcome = .ok value ∧
      ∃ kind earlier fallback later,
        value = .conditional kind
          (triedBefore earlier later ++ fallback :: later.filter (·.isFallback)) ∧
        (IsLastResort wideEnvironment.provider earlier fallback later ↔
          ¬ Displaces wideEnvironment.provider earlier fallback later) := by
  have hvalue := Value.ofNode_mapping_eq_ok_iff.mpr
    ⟨_, branchesOfPairs_fallbackBeforeVariable ⟨wideEnvironment.provider, none⟩, rfl⟩
  obtain ⟨kind, earlier, fallback, later, hstored, -, -, -, -, -, hiff⟩ :=
    @isLastResort_iff Empty _ [] _ _ _ hvalue wideEnvironment.provider
  exact ⟨_, hvalue, kind, earlier, fallback, later, hstored, hiff⟩

end Stylesheet
