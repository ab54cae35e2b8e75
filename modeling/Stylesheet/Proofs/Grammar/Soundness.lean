import Stylesheet.Proofs.Grammar
import Stylesheet.Proofs.Logged

/-!
# What the parser gives is derived

Whatever part of the parser succeeds, the tokens that it took off the front derive the tree that it
gives.
-/

namespace Stylesheet

namespace Parser

theorem accept?_eq_some_iff {symbol : Token.Symbol} {tokens rest : List Token} :
    accept? symbol tokens = some rest ↔
      ∃ token : Token, tokens = token :: rest ∧ token.kind = .symbol symbol := by
  constructor
  · intro haccept
    unfold accept? at haccept
    split at haccept
    · next s position asWord tail =>
        obtain ⟨hsymbol, hrest⟩ := Option.ite_none_right_eq_some.mp haccept
        cases hrest
        exact ⟨_, rfl, by rw [hsymbol]⟩
    · cases haccept
  · rintro ⟨⟨kind, position, asWord⟩, rfl, rfl⟩
    simp [accept?]

theorem expect_eq_ok_iff {symbol : Token.Symbol} {fault : SyntaxFault}
    {tokens rest : List Token} :
    expect symbol fault tokens = .ok rest ↔
      ∃ token : Token, tokens = token :: rest ∧ token.kind = .symbol symbol := by
  rw [← accept?_eq_some_iff, expect]
  cases accept? symbol tokens <;> simp

theorem operator?_eq_some_iff {level : Level} {tokens rest : List Token} {op : BinaryOperator} :
    operator? level tokens = some (op, rest) ↔
      ∃ (token : Token) (symbol : Token.Symbol), tokens = token :: rest ∧
        token.kind = .symbol symbol ∧ level.lookup symbol = some op := by
  constructor
  · intro hoperator
    unfold operator? at hoperator
    split at hoperator
    · next s position asWord tail =>
        obtain ⟨found, hfound, heq⟩ := Option.map_eq_some_iff.mp hoperator
        cases heq
        exact ⟨_, s, rfl, rfl, hfound⟩
    · cases hoperator
  · rintro ⟨⟨kind, position, asWord⟩, symbol, rfl, rfl, hlookup⟩
    simp [operator?, hlookup]

end Parser

namespace Phrase

/-- The levels of operators that a phrase is made of, loosest first. -/
def levels : Phrase → List Parser.Level
  | or => Parser.levels
  | and => Parser.levels.drop 1
  | comparison => Parser.levels.drop 2
  | sum => Parser.levels.drop 3
  | product => Parser.levels.drop 4
  | _ => []

/-- The level of the operators that join the operands of a phrase. -/
def level (phrase : Phrase) : Parser.Level :=
  phrase.levels.headD []

theorem levels_eq_cons {phrase tighter : Phrase} (hphrase : phrase.operand? = some tighter) :
    phrase.levels = phrase.level :: tighter.levels := by
  cases phrase <;> cases hphrase <;> rfl

/-- Whether a phrase is read as a chain of operators, perhaps without any. -/
def isChain : Phrase → Bool
  | expression | primary => false
  | _ => true

theorem isChain_of_operand? {phrase tighter : Phrase} (hphrase : phrase.operand? = some tighter) :
    phrase.isChain = true ∧ tighter.isChain = true := by
  cases phrase <;> cases hphrase <;> exact ⟨rfl, rfl⟩

theorem exists_operand?_or_eq_unary {phrase : Phrase} (hchain : phrase.isChain = true) :
    (∃ tighter, phrase.operand? = some tighter) ∨ phrase = .unary := by
  cases phrase <;> simp [isChain, operand?] at hchain ⊢

theorem lookup_level_eq_some_iff {phrase : Phrase} {symbol : Token.Symbol}
    {op : BinaryOperator} : phrase.level.lookup symbol = some op ↔ phrase.Joins symbol op := by
  constructor
  · intro hlookup
    cases phrase <;> cases symbol <;> cases hlookup <;> constructor
  · intro hjoins
    cases hjoins <;> rfl

end Phrase

namespace Parser

/-- A parser that takes the tokens of a phrase off the front and gives a tree of it. -/
def Reads (phrase : Phrase) (parse : Parse Expr) : Prop :=
  ∀ {tokens rest : List Token} {tree : Expr}, parse tokens = .ok (tree, rest) →
    ∃ used, tokens = used ++ rest ∧ Derives phrase used tree

/-- A phrase takes at least one token. -/
theorem Reads.length_lt {phrase : Phrase} {parse : Parse Expr} (hreads : Reads phrase parse)
    {tokens rest : List Token} {tree : Expr} (hparse : parse tokens = .ok (tree, rest)) :
    rest.length < tokens.length := by
  obtain ⟨used, rfl, hderives⟩ := hreads hparse
  obtain ⟨first, tail, rfl, _⟩ := hderives.exists_cons
  simp only [List.cons_append, List.length_cons, List.length_append]
  omega

/-- A chain goes on with the phrase that is read already. -/
theorem chain_reads {phrase tighter : Phrase} (hphrase : phrase.operand? = some tighter)
    {operand : Parse Expr} (hoperand : Reads tighter operand) {fuel : Nat}
    {before tokens rest : List Token} {left tree : Expr} (hleft : Derives phrase before left)
    (hchain : chain phrase.level operand fuel left tokens = .ok (tree, rest)) :
    ∃ used, tokens = used ++ rest ∧ Derives phrase (before ++ used) tree := by
  induction fuel generalizing before left tokens with
  | zero =>
      cases hchain
      exact ⟨[], rfl, by simpa using hleft⟩
  | succ fuel ih =>
      unfold chain at hchain
      split at hchain
      · cases hchain
        exact ⟨[], rfl, by simpa using hleft⟩
      · next op tail hoperator =>
          obtain ⟨token, symbol, rfl, hkind, hlookup⟩ := operator?_eq_some_iff.mp hoperator
          obtain ⟨⟨right, tail'⟩, hright, hnext⟩ := bind_eq_ok_iff.mp hchain
          obtain ⟨usedRight, rfl, hderives⟩ := hoperand hright
          have hjoins := Phrase.lookup_level_eq_some_iff.mp hlookup
          have hjoined := Derives.joined hphrase hjoins hkind hleft hderives
          obtain ⟨used, rfl, htree⟩ := ih hjoined hnext
          exact ⟨token :: (usedRight ++ used), by simp, by simpa using htree⟩

/-- Further arguments are phrases behind commas. -/
theorem furtherArguments_reads {argument : Parse Expr} (hargument : Reads .expression argument)
    {fuel : Nat} {tokens rest : List Token} {known trees : List Expr}
    (hfurther : furtherArguments argument fuel known tokens = .ok (trees, rest)) :
    ∃ (further : List (List Token × Expr)) (used : List Token), tokens = used ++ rest ∧
      trees = known ++ further.map Prod.snd ∧ BehindCommas (further.map Prod.fst) used ∧
      ∀ argument ∈ further, Derives .expression argument.1 argument.2 := by
  induction fuel generalizing known tokens with
  | zero =>
      cases hfurther
      exact ⟨[], [], rfl, by simp, .none, by simp⟩
  | succ fuel ih =>
      unfold furtherArguments at hfurther
      split at hfurther
      · cases hfurther
        exact ⟨[], [], rfl, by simp, .none, by simp⟩
      · next tail haccept =>
          obtain ⟨comma, rfl, hcomma⟩ := accept?_eq_some_iff.mp haccept
          obtain ⟨⟨next, tail'⟩, hnext, hothers⟩ := bind_eq_ok_iff.mp hfurther
          obtain ⟨usedNext, rfl, hderives⟩ := hargument hnext
          obtain ⟨further, used, rfl, rfl, hbehind, hall⟩ := ih hothers
          refine ⟨(usedNext, next) :: further, comma :: (usedNext ++ used), by simp, by simp,
            .more hcomma hbehind, ?_⟩
          simp only [List.forall_mem_cons]
          exact ⟨hderives, hall⟩

/-- What the parts of the parser give within a nesting budget is derived. -/
structure Sound (budget : Nat) : Prop where
  expression : Reads .expression (expression budget)
  operators {phrase : Phrase} : phrase.isChain = true →
    Reads phrase (operators budget phrase.levels)
  unary : Reads .unary (unary budget)
  primary : Reads .primary (primary budget)
  arguments {tokens rest : List Token} {trees : List Expr} :
    arguments budget tokens = .ok (trees, rest) →
    ∃ (parts : List (List Token × Expr)) (inner : List Token) (closing : Token),
      tokens = inner ++ closing :: rest ∧ closing.kind = .symbol .closeParen ∧
        trees = parts.map Prod.snd ∧ BetweenCommas (parts.map Prod.fst) inner ∧
        ∀ part ∈ parts, Derives .expression part.1 part.2

variable {budget : Nat}

theorem Sound.expression_succ (hsound : Sound budget) :
    Reads .expression (Parser.expression (budget + 1)) := by
  intro tokens rest tree hparse
  rw [Parser.expression] at hparse
  obtain ⟨⟨c, tail⟩, hcondition, hnext⟩ := bind_eq_ok_iff.mp hparse
  have hor : Reads .or (Parser.operators budget Phrase.or.levels) := hsound.operators rfl
  obtain ⟨usedCondition, rfl, hc⟩ := hor hcondition
  dsimp only at hnext
  split at hnext
  · cases hnext
    exact ⟨usedCondition, rfl, .plain hc⟩
  · next behindQuestion haccept =>
      obtain ⟨question, rfl, hquestion⟩ := accept?_eq_some_iff.mp haccept
      obtain ⟨⟨a, tailTrue⟩, htrue, hbranches⟩ := bind_eq_ok_iff.mp hnext
      obtain ⟨usedTrue, rfl, ha⟩ := hsound.expression htrue
      obtain ⟨behindColon, hexpect, hlast⟩ := bind_eq_ok_iff.mp hbranches
      obtain ⟨colon, rfl, hcolon⟩ := expect_eq_ok_iff.mp hexpect
      obtain ⟨⟨b, tailFalse⟩, hfalse, hresult⟩ := bind_eq_ok_iff.mp hlast
      obtain ⟨usedFalse, rfl, hb⟩ := hsound.expression hfalse
      cases hresult
      exact ⟨usedCondition ++ question :: (usedTrue ++ colon :: usedFalse), by simp,
        .conditional hquestion hcolon hc ha hb⟩

theorem Sound.operators_succ (hsound : Sound budget) {phrase : Phrase}
    (hphrase : phrase.isChain = true) :
    Reads phrase (Parser.operators (budget + 1) phrase.levels) := by
  intro tokens rest tree hparse
  rcases Phrase.exists_operand?_or_eq_unary hphrase with ⟨tighter, htighter⟩ | rfl
  · rw [Phrase.levels_eq_cons htighter, Parser.operators] at hparse
    obtain ⟨⟨left, tail⟩, hleft, hchain⟩ := bind_eq_ok_iff.mp hparse
    have hoperand : Reads tighter (Parser.operators budget tighter.levels) :=
      hsound.operators (Phrase.isChain_of_operand? htighter).2
    obtain ⟨usedLeft, rfl, hderives⟩ := hoperand hleft
    obtain ⟨used, rfl, htree⟩ :=
      chain_reads htighter hoperand (.operand htighter hderives) hchain
    exact ⟨usedLeft ++ used, by simp, htree⟩
  · obtain ⟨used, rfl, hderives⟩ := hsound.unary hparse
    exact ⟨used, rfl, hderives⟩

theorem Sound.unary_succ (hsound : Sound budget) : Reads .unary (Parser.unary (budget + 1)) := by
  intro tokens rest tree hparse
  unfold Parser.unary at hparse
  split at hparse
  · obtain ⟨⟨operand, tail⟩, hoperand, hresult⟩ := bind_eq_ok_iff.mp hparse
    obtain ⟨used, rfl, hderives⟩ := hsound.unary hoperand
    cases hresult
    exact ⟨_ :: used, rfl, .not rfl hderives⟩
  · obtain ⟨⟨operand, tail⟩, hoperand, hresult⟩ := bind_eq_ok_iff.mp hparse
    obtain ⟨used, rfl, hderives⟩ := hsound.unary hoperand
    cases hresult
    exact ⟨_ :: used, rfl, .negate rfl hderives⟩
  · obtain ⟨used, rfl, hderives⟩ := hsound.unary hparse
    exact ⟨_ :: used, rfl, .plus rfl hderives⟩
  · obtain ⟨used, rfl, hderives⟩ := hsound.primary hparse
    exact ⟨used, rfl, .primary hderives⟩

theorem Sound.primary_succ (hsound : Sound budget) :
    Reads .primary (Parser.primary (budget + 1)) := by
  intro tokens rest tree hparse
  unfold Parser.primary at hparse
  split at hparse
  · cases hparse
    exact ⟨[_], rfl, .number rfl⟩
  · cases hparse
    exact ⟨[_], rfl, .boolean rfl⟩
  · next text position asWord behind =>
      split at hparse
      · cases hparse
        exact ⟨[_], rfl, .name rfl⟩
      · next tail haccept =>
          obtain ⟨opening, rfl, hopening⟩ := accept?_eq_some_iff.mp haccept
          obtain ⟨⟨trees, tail'⟩, harguments, hresult⟩ := bind_eq_ok_iff.mp hparse
          obtain ⟨parts, inner, closing, rfl, hclosing, rfl, hbetween, hall⟩ :=
            hsound.arguments harguments
          cases hresult
          exact ⟨⟨.name text, position, asWord⟩ :: opening :: (inner ++ [closing]), by simp,
            .call rfl hopening hclosing hbetween hall⟩
  · next position asWord behind =>
      obtain ⟨⟨inner, tail⟩, hinner, hclose⟩ := bind_eq_ok_iff.mp hparse
      obtain ⟨used, rfl, hderives⟩ := hsound.expression hinner
      obtain ⟨behindClosing, hexpect, hresult⟩ := bind_eq_ok_iff.mp hclose
      obtain ⟨closing, rfl, hclosing⟩ := expect_eq_ok_iff.mp hexpect
      cases hresult
      exact ⟨⟨.symbol .openParen, position, asWord⟩ :: (used ++ [closing]), by simp,
        .group rfl hclosing hderives⟩
  · cases hparse

theorem Sound.arguments_succ (hsound : Sound budget) {tokens rest : List Token}
    {trees : List Expr} (hparse : Parser.arguments (budget + 1) tokens = .ok (trees, rest)) :
    ∃ (parts : List (List Token × Expr)) (inner : List Token) (closing : Token),
      tokens = inner ++ closing :: rest ∧ closing.kind = .symbol .closeParen ∧
        trees = parts.map Prod.snd ∧ BetweenCommas (parts.map Prod.fst) inner ∧
        ∀ part ∈ parts, Derives .expression part.1 part.2 := by
  unfold Parser.arguments at hparse
  split at hparse
  · next tail haccept =>
      obtain ⟨closing, rfl, hclosing⟩ := accept?_eq_some_iff.mp haccept
      cases hparse
      exact ⟨[], [], closing, rfl, hclosing, rfl, .none, by simp⟩
  · obtain ⟨⟨first, tail⟩, hfirst, hothers⟩ := bind_eq_ok_iff.mp hparse
    obtain ⟨usedFirst, rfl, hderives⟩ := hsound.expression hfirst
    obtain ⟨⟨found, tail'⟩, hfurther, hclose⟩ := bind_eq_ok_iff.mp hothers
    obtain ⟨further, used, rfl, rfl, hbehind, hall⟩ :=
      furtherArguments_reads hsound.expression hfurther
    obtain ⟨behind, hexpect, hresult⟩ := bind_eq_ok_iff.mp hclose
    obtain ⟨closing, rfl, hclosing⟩ := expect_eq_ok_iff.mp hexpect
    cases hresult
    refine ⟨(usedFirst, first) :: further, usedFirst ++ used, closing, by simp, hclosing, by simp,
      .some hbehind, ?_⟩
    simp only [List.forall_mem_cons]
    exact ⟨hderives, hall⟩

/-- The induction is on the budget, since the parts call each other with less of it. -/
theorem sound (budget : Nat) : Sound budget := by
  induction budget with
  | zero =>
      constructor
      · intro tokens rest tree hparse
        cases hparse
      · intro phrase _ tokens rest tree hparse
        cases hparse
      · intro tokens rest tree hparse
        cases hparse
      · intro tokens rest tree hparse
        cases hparse
      · intro tokens rest trees hparse
        cases hparse
  | succ budget ih =>
      exact
        { expression := ih.expression_succ
          operators := ih.operators_succ
          unary := ih.unary_succ
          primary := ih.primary_succ
          arguments := ih.arguments_succ }

/-- A tree that is given for a whole list of tokens is derived by those in front of the end. -/
theorem derives_of_parseWithin {tokens : List Token} {tree : Expr}
    (hparse : parseWithin budget tokens = .ok tree) :
    Derives .expression (beforeFinish tokens) tree := by
  unfold parseWithin at hparse
  split at hparse
  · cases hparse
  · cases hparse
  · obtain ⟨⟨found, rest⟩, hexpression, hend⟩ := bind_eq_ok_iff.mp hparse
    obtain ⟨used, rfl, hderives⟩ := (sound budget).expression hexpression
    dsimp only at hend
    split at hend
    · cases hend
      rwa [← hderives.eq_beforeFinish (by simp)]
    · cases hend
      rwa [← hderives.eq_beforeFinish (by simp [Token.isFinish])]
    · cases hend

end Parser

end Stylesheet
