import Stylesheet.Proofs.Grammar.Completeness

/-!
# Parsing decides the grammar

With enough of a nesting budget for its tokens the parser always comes to an answer, and whenever it
comes to one, the answer is that of the grammar.
-/

namespace Stylesheet

namespace Parser

theorem expect_ne_tooDeep (symbol : Token.Symbol) (fault : SyntaxFault) (tokens : List Token) :
    expect symbol fault tokens ≠ .error .tooDeep := by
  unfold expect
  split <;> simp

/-- A chain of operands, each read within the budget, is read within it. -/
theorem chain_ne_tooDeep {level : Level} {phrase : Phrase} {operand : Parse Expr}
    (hreads : Reads phrase operand) {bound : Nat}
    (hoperand : ∀ tokens : List Token, tokens.length ≤ bound → operand tokens ≠ .error .tooDeep)
    (fuel : Nat) (left : Expr) {tokens : List Token} (hbound : tokens.length ≤ bound) :
    chain level operand fuel left tokens ≠ .error .tooDeep := by
  induction fuel generalizing left tokens with
  | zero => simp [chain]
  | succ fuel ih =>
      unfold chain
      split
      · simp
      · next op tail hoperator =>
          obtain ⟨token, symbol, rfl, _, _⟩ := operator?_eq_some_iff.mp hoperator
          rw [List.length_cons] at hbound
          refine bind_ne_error (hoperand tail (by omega)) ?_
          rintro ⟨right, rest⟩ hright
          have hlength := hreads.length_lt hright
          exact ih _ (by omega)

theorem furtherArguments_ne_tooDeep {argument : Parse Expr}
    (hreads : Reads .expression argument) {bound : Nat}
    (hargument : ∀ tokens : List Token, tokens.length ≤ bound → argument tokens ≠ .error .tooDeep)
    (fuel : Nat) (known : List Expr) {tokens : List Token} (hbound : tokens.length ≤ bound) :
    furtherArguments argument fuel known tokens ≠ .error .tooDeep := by
  induction fuel generalizing known tokens with
  | zero => simp [furtherArguments]
  | succ fuel ih =>
      unfold furtherArguments
      split
      · simp
      · next tail haccept =>
          obtain ⟨comma, rfl, _⟩ := accept?_eq_some_iff.mp haccept
          rw [List.length_cons] at hbound
          refine bind_ne_error (hargument tail (by omega)) ?_
          rintro ⟨next, rest⟩ hnext
          have hlength := hreads.length_lt hnext
          exact ih _ (by omega)

/-- A budget is enough for its share of tokens: nine units for each token, as a parenthesis takes
that many, and what is left to unfold behind the last one. -/
structure Enough (budget : Nat) : Prop where
  expression (tokens : List Token) : 9 * tokens.length + 9 ≤ budget →
    expression budget tokens ≠ .error .tooDeep
  operators (phrase : Phrase) (tokens : List Token) : phrase.isChain = true →
    9 * tokens.length + phrase.levels.length + 3 ≤ budget →
    operators budget phrase.levels tokens ≠ .error .tooDeep
  unary (tokens : List Token) : 9 * tokens.length + 2 ≤ budget →
    unary budget tokens ≠ .error .tooDeep
  primary (tokens : List Token) : 9 * tokens.length + 1 ≤ budget →
    primary budget tokens ≠ .error .tooDeep
  arguments (tokens : List Token) : 9 * tokens.length + 10 ≤ budget →
    arguments budget tokens ≠ .error .tooDeep

variable {budget : Nat}

theorem Enough.expression_succ (henough : Enough budget) (tokens : List Token)
    (hbudget : 9 * tokens.length + 9 ≤ budget + 1) :
    Parser.expression (budget + 1) tokens ≠ .error .tooDeep := by
  have hor : Reads .or (Parser.operators budget Phrase.or.levels) := (sound budget).operators rfl
  have hexpression : Reads .expression (Parser.expression budget) := (sound budget).expression
  rw [Parser.expression]
  have hlevels : Phrase.or.levels.length = 5 := rfl
  refine bind_ne_error (henough.operators .or tokens rfl (by omega)) ?_
  rintro ⟨condition, rest⟩ hcondition
  have hlength := hor.length_lt hcondition
  dsimp only
  split
  · simp
  · next tail haccept =>
      obtain ⟨question, rfl, _⟩ := accept?_eq_some_iff.mp haccept
      rw [List.length_cons] at hlength
      refine bind_ne_error (henough.expression tail (by omega)) ?_
      rintro ⟨whenTrue, restTrue⟩ htrue
      have hlengthTrue := hexpression.length_lt htrue
      refine bind_ne_error (expect_ne_tooDeep _ _ _) ?_
      intro behindColon hexpect
      obtain ⟨colon, rfl, _⟩ := expect_eq_ok_iff.mp hexpect
      rw [List.length_cons] at hlengthTrue
      refine bind_ne_error (henough.expression behindColon (by omega)) ?_
      rintro ⟨whenFalse, restFalse⟩ _
      simp

theorem Enough.operators_succ (henough : Enough budget) (phrase : Phrase) (tokens : List Token)
    (hchain : phrase.isChain = true)
    (hbudget : 9 * tokens.length + phrase.levels.length + 3 ≤ budget + 1) :
    Parser.operators (budget + 1) phrase.levels tokens ≠ .error .tooDeep := by
  rcases Phrase.exists_operand?_or_eq_unary hchain with ⟨tighter, htighter⟩ | rfl
  · have hchain' := (Phrase.isChain_of_operand? htighter).2
    have hreads : Reads tighter (Parser.operators budget tighter.levels) :=
      (sound budget).operators hchain'
    rw [Phrase.levels_eq_cons htighter, List.length_cons] at hbudget
    rw [Phrase.levels_eq_cons htighter, Parser.operators]
    refine bind_ne_error (henough.operators tighter tokens hchain' (by omega)) ?_
    rintro ⟨left, rest⟩ hleft
    have hlength := hreads.length_lt hleft
    have hoperand (tokens' : List Token) (hbound : tokens'.length ≤ tokens.length) :
        Parser.operators budget tighter.levels tokens' ≠ .error .tooDeep :=
      henough.operators tighter tokens' hchain' (by omega)
    exact chain_ne_tooDeep hreads hoperand rest.length left (by omega)
  · have hlevels : Phrase.unary.levels.length = 0 := rfl
    exact henough.unary tokens (by omega)

theorem Enough.unary_succ (henough : Enough budget) (tokens : List Token)
    (hbudget : 9 * tokens.length + 2 ≤ budget + 1) :
    Parser.unary (budget + 1) tokens ≠ .error .tooDeep := by
  unfold Parser.unary
  split
  · rw [List.length_cons] at hbudget
    exact bind_ne_error (henough.unary _ (by omega)) (by simp)
  · rw [List.length_cons] at hbudget
    exact bind_ne_error (henough.unary _ (by omega)) (by simp)
  · rw [List.length_cons] at hbudget
    exact henough.unary _ (by omega)
  · exact henough.primary tokens (by omega)

theorem Enough.primary_succ (henough : Enough budget) (tokens : List Token)
    (hbudget : 9 * tokens.length + 1 ≤ budget + 1) :
    Parser.primary (budget + 1) tokens ≠ .error .tooDeep := by
  unfold Parser.primary
  split
  · simp
  · simp
  · split
    · simp
    · next haccept =>
        obtain ⟨opening, rfl, _⟩ := accept?_eq_some_iff.mp haccept
        rw [List.length_cons, List.length_cons] at hbudget
        exact bind_ne_error (henough.arguments _ (by omega)) (by simp)
  · rw [List.length_cons] at hbudget
    refine bind_ne_error (henough.expression _ (by omega)) ?_
    rintro ⟨inner, rest⟩ _
    exact bind_ne_error (expect_ne_tooDeep _ _ _) (by simp)
  · simp

theorem Enough.arguments_succ (henough : Enough budget) (tokens : List Token)
    (hbudget : 9 * tokens.length + 10 ≤ budget + 1) :
    Parser.arguments (budget + 1) tokens ≠ .error .tooDeep := by
  have hexpression : Reads .expression (Parser.expression budget) := (sound budget).expression
  unfold Parser.arguments
  split
  · simp
  · refine bind_ne_error (henough.expression tokens (by omega)) ?_
    rintro ⟨first, rest⟩ hfirst
    have hlength := hexpression.length_lt hfirst
    have hargument (tokens' : List Token) (hbound : tokens'.length ≤ tokens.length) :
        Parser.expression budget tokens' ≠ .error .tooDeep :=
      henough.expression tokens' (by omega)
    refine bind_ne_error (furtherArguments_ne_tooDeep hexpression hargument rest.length [first]
      (by omega)) ?_
    rintro ⟨arguments, rest'⟩ _
    exact bind_ne_error (expect_ne_tooDeep _ _ _) (by simp)

theorem enough (budget : Nat) : Enough budget := by
  induction budget with
  | zero => constructor <;> intros <;> omega
  | succ budget ih =>
      exact
        { expression := ih.expression_succ
          operators := ih.operators_succ
          unary := ih.unary_succ
          primary := ih.primary_succ
          arguments := ih.arguments_succ }

/-- A budget of nine units a token, and nine more, is never used up. -/
theorem parseWithin_ne_tooDeep {tokens : List Token} (hbudget : 9 * tokens.length + 9 ≤ budget) :
    parseWithin budget tokens ≠ .error .tooDeep := by
  unfold parseWithin
  split
  · simp
  · simp
  · refine bind_ne_error ((enough budget).expression tokens hbudget) ?_
    rintro ⟨tree, rest⟩ _
    dsimp only
    split <;> simp

theorem beforeFinish_eq_self {tokens : List Token}
    (htokens : ∀ token ∈ tokens, token.isFinish = false) : beforeFinish tokens = tokens := by
  have hall : ∀ token ∈ tokens, (!token.isFinish) = true := by simpa using htokens
  have hnil : beforeFinish (tokens ++ []) = tokens ++ [] := List.takeWhile_append_of_pos hall
  simpa using hnil

/-- With enough of a budget a tree that is derived is found. -/
theorem parseWithin_eq_ok_of_derives {tokens : List Token} {tree : Expr}
    (hderives : Derives .expression tokens tree) (hbudget : 9 * tokens.length + 9 ≤ budget) :
    parseWithin budget tokens = .ok tree := by
  have hbefore := beforeFinish_eq_self hderives.isFinish_eq_false
  exact (parseWithin_of_derives (hbefore.symm ▸ hderives) budget).resolve_right
    (parseWithin_ne_tooDeep hbudget)

/-- The grammar is unambiguous: tokens derive one tree at most. -/
theorem derives_unique {tokens : List Token} {a b : Expr} (ha : Derives .expression tokens a)
    (hb : Derives .expression tokens b) : a = b := by
  have hread := parseWithin_eq_ok_of_derives ha (Nat.le_refl _)
  rw [parseWithin_eq_ok_of_derives hb (Nat.le_refl _)] at hread
  exact (Except.ok.inj hread).symm

/-- Unless the nesting budget is used up, which nine units a token prevent, a tree is given exactly
if the tokens in front of the end derive it, and a fault is found exactly if they derive none.
Reading the tokens of a source is the case of the budget `nestingLimit`. -/
theorem parseWithin_decides_grammar (budget : Nat) (tokens : List Token) :
    (9 * tokens.length + 9 ≤ budget → parseWithin budget tokens ≠ .error .tooDeep) ∧
      (parseWithin budget tokens ≠ .error .tooDeep →
        (∀ tree, parseWithin budget tokens = .ok tree ↔
          Derives .expression (beforeFinish tokens) tree) ∧
        ((∃ e, parseWithin budget tokens = .error (.malformed e)) ↔
          ¬ ∃ tree, Derives .expression (beforeFinish tokens) tree)) := by
  refine ⟨parseWithin_ne_tooDeep, fun hdeep => ⟨fun tree => ?_, ?_⟩⟩
  · constructor
    · exact derives_of_parseWithin
    · intro hderives
      exact (parseWithin_of_derives hderives budget).resolve_right hdeep
  · constructor
    · rintro ⟨e, hparse⟩ ⟨tree, hderives⟩
      have hok := (parseWithin_of_derives hderives budget).resolve_right hdeep
      rw [hparse] at hok
      cases hok
    · intro hnone
      cases hparse : parseWithin budget tokens with
      | ok tree => exact absurd ⟨tree, derives_of_parseWithin hparse⟩ hnone
      | error failure =>
          cases failure with
          | malformed e => exact ⟨e, rfl⟩
          | tooDeep => exact absurd hparse hdeep

end Parser

end Stylesheet
