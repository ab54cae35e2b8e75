import Stylesheet.Environment.Snapshot
import Stylesheet.Proofs.Expression.Cause

/-!
# What an evaluation depends on

An evaluation learns about its environment from the answers to its own questions.  Which questions
it asks depends on earlier answers: operands may be left alone, and a failure ends everything.
Still, providers that agree on the questions asked under one of them are alike to the evaluation.
-/

namespace Stylesheet

open Logged

/-- Another provider gives the same answers to some questions. -/
def Provider.AgreesOn (provider other : Provider) (queries : List Query) : Prop :=
  ∀ query ∈ queries, other.answer query = provider.answer query

/-- A computation depends on its own questions alone: a provider that gives the same answers to
those that are asked makes no difference to it. -/
def DependsOnQueries {α : Type} (run : Provider → Evaluation α) : Prop :=
  ∀ provider other, provider.AgreesOn other (run provider).log → run other = run provider

namespace DependsOnQueries

variable {α β : Type}

theorem const (x : Evaluation α) : DependsOnQueries fun _ => x :=
  fun _ _ _ => rfl

/-- When the first part is run alike, it hands the same value to the second, which is then run
alike as well. -/
theorem bind {run : Provider → Evaluation α} {next : Provider → α → Evaluation β}
    (hrun : DependsOnQueries run) (hnext : ∀ a, DependsOnQueries fun provider => next provider a) :
    DependsOnQueries fun provider => run provider >>= next provider := by
  intro provider other hagrees
  dsimp only at hagrees ⊢
  cases houtcome : (run provider).outcome with
  | error e =>
      rw [bind_of_error houtcome] at hagrees
      have hsame : run other = run provider := hrun provider other hagrees
      rw [hsame, bind_of_error houtcome, bind_of_error houtcome]
  | ok a =>
      rw [bind_of_ok houtcome] at hagrees
      have hsame : run other = run provider :=
        hrun provider other fun query hquery => hagrees query (List.mem_append_left _ hquery)
      have hsameNext : next other a = next provider a :=
        hnext a provider other fun query hquery => hagrees query (List.mem_append_right _ hquery)
      rw [hsame, bind_of_ok houtcome, bind_of_ok houtcome, hsameNext]

theorem ask (query : Query) (name : String) :
    DependsOnQueries fun provider => provider.ask query name := by
  intro provider other hagrees
  simp only [Provider.ask_eq] at hagrees ⊢
  rw [hagrees query (List.mem_singleton_self query)]

theorem valueOf (name : String) : DependsOnQueries fun provider => provider.valueOf name := by
  simp only [Provider.valueOf_eq]
  cases constant? name with
  | some value => exact const _
  | none => exact (ask _ name).bind fun answer => const _

theorem nested {inner : Nat → Provider → Evaluation α}
    (hinner : ∀ rest, DependsOnQueries (inner rest)) (budget : Nat) :
    DependsOnQueries fun provider => nested budget fun rest => inner rest provider := by
  cases budget with
  | zero => exact const _
  | succ rest => exact hinner rest

end DependsOnQueries

namespace Expr

mutual

/-- The evaluation of a tree depends on its own questions alone. -/
theorem dependsOnQueries_evaluateWithin : ∀ (tree : Expr) (budget : Nat),
    DependsOnQueries fun provider => tree.evaluateWithin provider budget
  | .number value, budget | .boolean value, budget | .foreign leaf, budget => by
      simp only [evaluateWithin]
      exact .const _
  | .name text, budget => by
      simp only [evaluateWithin]
      exact .nested (fun _ => .valueOf text) budget
  | .unary op operand, budget => by
      simp only [evaluateWithin]
      refine .nested (fun rest => ?_) budget
      exact (dependsOnQueries_evaluateWithin operand rest).bind fun x => .const _
  | .binary op left right, budget => by
      have hleft := dependsOnQueries_evaluateWithin left
      have hright := dependsOnQueries_evaluateWithin right
      by_cases hand : op = .and
      · subst hand
        simp only [evaluateWithin]
        refine .nested (fun rest => (hleft rest).bind fun x => ?_) budget
        split
        · exact (hright rest).bind fun y => .const _
        · exact .const _
      · by_cases hor : op = .or
        · subst hor
          simp only [evaluateWithin]
          refine .nested (fun rest => (hleft rest).bind fun x => ?_) budget
          split
          · exact .const _
          · exact (hright rest).bind fun y => .const _
        · simp only [evaluateWithin_strict hand hor]
          refine .nested (fun rest => ?_) budget
          exact (hleft rest).bind fun x => (hright rest).bind fun y => .const _
  | .conditional condition whenTrue whenFalse, budget => by
      have hcondition := dependsOnQueries_evaluateWithin condition
      have htrue := dependsOnQueries_evaluateWithin whenTrue
      have hfalse := dependsOnQueries_evaluateWithin whenFalse
      simp only [evaluateWithin]
      refine .nested (fun rest => (hcondition rest).bind fun x => ?_) budget
      split
      · exact htrue rest
      · exact hfalse rest
  | .call function arguments, budget => by
      have harguments := dependsOnQueries_evaluateAllWithin arguments
      simp only [evaluateWithin]
      refine .nested (fun rest => ?_) budget
      split
      · exact .const _
      · split
        · exact (harguments rest).bind fun values => .const _
        · exact .const _

theorem dependsOnQueries_evaluateAllWithin : ∀ (arguments : List Expr) (budget : Nat),
    DependsOnQueries fun provider => evaluateAllWithin provider budget arguments
  | [], budget => by
      simp only [evaluateAllWithin]
      exact .const _
  | argument :: rest, budget => by
      have hvalue := dependsOnQueries_evaluateWithin argument budget
      have hvalues := dependsOnQueries_evaluateAllWithin rest budget
      simp only [evaluateAllWithin]
      exact hvalue.bind fun value => hvalues.bind fun values => .const _

end

/-- A provider that gives the same answers to the questions of an evaluation gives the same value or
error and is asked the same questions.  All questions are about names in the tree that are no
constants, and variables are asked for only by names that are no environment symbols either. -/
theorem evaluate_depends_on_queries (tree : Expr) (provider other : Provider)
    (hagrees : provider.AgreesOn other (tree.evaluate provider).log) :
    (tree.evaluate other).outcome = (tree.evaluate provider).outcome ∧
      (tree.evaluate other).log = (tree.evaluate provider).log ∧
      (∀ query ∈ (tree.evaluate provider).log, ∃ depth name,
        tree.HasPart depth (.name name) ∧ constant? name = none ∧ query = Query.ofName name) ∧
      ∀ name, Query.named name ∈ (tree.evaluate provider).log →
        constant? name = none ∧ (Named.ofName? name : Option EnvironmentSymbol) = none := by
  have hsame : tree.evaluate other = tree.evaluate provider :=
    dependsOnQueries_evaluateWithin tree depthLimit provider other hagrees
  have hasked : ∀ query ∈ (tree.evaluate provider).log, tree.MayAsk query :=
    (accounts_evaluateWithin tree depthLimit).asked
  refine ⟨by rw [hsame], by rw [hsame], hasked, fun name hname => ?_⟩
  obtain ⟨depth, text, -, hconstant, hquery⟩ := hasked _ hname
  obtain ⟨rfl, hsymbol⟩ := Query.ofName_eq_named_iff.mp hquery.symm
  exact ⟨hconstant, hsymbol⟩

/-- The narrow margin, but for tablets the wide one. -/
def marginTree : Expr :=
  .conditional (.binary .equal (.name "idiom") (.name "iPad")) (.name "wide") (.name "narrow")

/-- A phone held upright, with a narrow margin only. -/
def uprightEnvironment : Environment where
  named := Table.ofList [("narrow", .integer 16)]

/-- A phone on its side, with both margins. -/
def sidewaysEnvironment : Environment where
  orientation := .landscape
  named := Table.ofList [("wide", .integer 24), ("narrow", .integer 16)]

theorem log_evaluate_marginTree :
    (marginTree.evaluate uprightEnvironment.provider).log = [.symbol .idiom, .named "narrow"] := by
  decide +kernel

/-- The orientation and the wide margin are not asked for, so they make no difference. -/
theorem evaluate_depends_on_queries_marginTree :
    uprightEnvironment.provider.AgreesOn sidewaysEnvironment.provider
        (marginTree.evaluate uprightEnvironment.provider).log ∧
      (marginTree.evaluate sidewaysEnvironment.provider).outcome
        = (marginTree.evaluate uprightEnvironment.provider).outcome ∧
      constant? "narrow" = none := by
  have hagrees : uprightEnvironment.provider.AgreesOn sidewaysEnvironment.provider
      (marginTree.evaluate uprightEnvironment.provider).log := by
    intro query hquery
    simp only [log_evaluate_marginTree, List.mem_cons, List.not_mem_nil, or_false] at hquery
    rcases hquery with rfl | rfl
    · rfl
    · rfl
  obtain ⟨houtcome, hlog, -, hnames⟩ := evaluate_depends_on_queries marginTree _ _ hagrees
  have hnarrow : Query.named "narrow" ∈
      (marginTree.evaluate uprightEnvironment.provider).log := by
    rw [log_evaluate_marginTree]
    exact List.mem_cons_of_mem _ List.mem_cons_self
  exact ⟨hagrees, houtcome, (hnames "narrow" hnarrow).1⟩

end Expr

end Stylesheet
