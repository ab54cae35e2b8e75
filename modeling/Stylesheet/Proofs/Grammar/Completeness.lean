import Stylesheet.Proofs.Grammar.Soundness

/-!
# What is derived is found

The parser finds every tree that the grammar derives, unless its nesting budget is used up.  It
looks one token ahead; what it needs to know is that the token behind a phrase cannot belong to the
phrase, which the ranks of the symbols say.
-/

namespace Stylesheet

/-- The rank of the phrases that a symbol can make longer: those of this rank and all looser ones.
A symbol that makes no phrase longer has the last rank. -/
def Token.Symbol.rank : Token.Symbol → Nat
  | openParen => 0
  | times | divide | modulo => 1
  | plus | minus => 2
  | equal | notEqual | less | lessEqual | greater | greaterEqual => 3
  | and => 4
  | or => 5
  | question => 6
  | not | colon | closeParen | comma => 7

namespace Phrase

/-- Looser phrases have higher ranks. -/
def rank : Phrase → Nat
  | primary | unary => 0
  | product => 1
  | sum => 2
  | comparison => 3
  | and => 4
  | or => 5
  | expression => 6

theorem rank_of_joins {phrase : Phrase} {symbol : Token.Symbol} {op : BinaryOperator}
    (hjoins : phrase.Joins symbol op) : symbol.rank = phrase.rank := by
  cases hjoins <;> rfl

theorem rank_of_operand? {phrase tighter : Phrase} (hphrase : phrase.operand? = some tighter) :
    tighter.rank < phrase.rank := by
  cases phrase <;> cases hphrase <;> decide

/-- A phrase in front of these tokens ends there. -/
def Stops (phrase : Phrase) (rest : List Token) : Prop :=
  ∀ token ∈ rest.head?, ∀ symbol, token.kind = .symbol symbol → phrase.rank < symbol.rank

theorem Stops.of_rank_le {phrase tighter : Phrase} {rest : List Token} (hstops : phrase.Stops rest)
    (hrank : tighter.rank ≤ phrase.rank) : tighter.Stops rest := by
  intro token htoken symbol hsymbol
  exact Nat.lt_of_le_of_lt hrank (hstops token htoken symbol hsymbol)

theorem stops_cons {phrase : Phrase} {token : Token} {rest : List Token} {symbol : Token.Symbol}
    (hsymbol : token.kind = .symbol symbol) (hrank : phrase.rank < symbol.rank) :
    phrase.Stops (token :: rest) := by
  intro head hhead found hfound
  cases hhead
  rw [hsymbol] at hfound
  cases hfound
  exact hrank

end Phrase

namespace Parser

theorem accept?_eq_none_of_stops {phrase : Phrase} {rest : List Token} {symbol : Token.Symbol}
    (hstops : phrase.Stops rest) (hrank : symbol.rank ≤ phrase.rank) :
    accept? symbol rest = none := by
  rw [Option.eq_none_iff_forall_ne_some]
  intro tail haccept
  obtain ⟨token, rfl, hkind⟩ := accept?_eq_some_iff.mp haccept
  have hlt := hstops token rfl symbol hkind
  omega

theorem accept?_eq_none_of_ne {token : Token} {symbol other : Token.Symbol}
    (hkind : token.kind = .symbol other) (hne : other ≠ symbol) (rest : List Token) :
    accept? symbol (token :: rest) = none := by
  obtain ⟨kind, position, asWord⟩ := token
  cases hkind
  simp [accept?, hne]

theorem accept?_closeParen_of_startsPhrase {token : Token} (hstarts : token.startsPhrase = true)
    (rest : List Token) : accept? .closeParen (token :: rest) = none := by
  rw [Option.eq_none_iff_forall_ne_some]
  intro tail haccept
  obtain ⟨found, heq, hkind⟩ := accept?_eq_some_iff.mp haccept
  cases heq
  simp [Token.startsPhrase, hkind] at hstarts

theorem operator?_eq_none_of_stops {phrase : Phrase} {rest : List Token}
    (hstops : phrase.Stops rest) : operator? phrase.level rest = none := by
  rw [Option.eq_none_iff_forall_ne_some]
  rintro ⟨op, tail⟩ hoperator
  obtain ⟨token, symbol, rfl, hkind, hlookup⟩ := operator?_eq_some_iff.mp hoperator
  have hrank := Phrase.rank_of_joins (Phrase.lookup_level_eq_some_iff.mp hlookup)
  have hlt := hstops token rfl symbol hkind
  omega

/-- A result is as said, unless the nesting budget is used up. -/
def UnlessTooDeep {α : Type} (result expected : Except Failure α) : Prop :=
  result = expected ∨ result = .error .tooDeep

namespace UnlessTooDeep

variable {α β : Type}

theorem refl (result : Except Failure α) : UnlessTooDeep result result :=
  Or.inl rfl

theorem tooDeep (expected : Except Failure α) : UnlessTooDeep (.error .tooDeep) expected :=
  Or.inr rfl

theorem trans {x y z : Except Failure α} (hxy : UnlessTooDeep x y) (hyz : UnlessTooDeep y z) :
    UnlessTooDeep x z := by
  rcases hxy with rfl | rfl
  · exact hyz
  · exact tooDeep z

theorem bind {x : Except Failure α} {a : α} {f : α → Except Failure β} {y : Except Failure β}
    (hx : UnlessTooDeep x (.ok a)) (hf : UnlessTooDeep (f a) y) : UnlessTooDeep (x >>= f) y := by
  rcases hx with rfl | rfl
  · exact hf
  · exact tooDeep y

end UnlessTooDeep

/-- A chain stops where a phrase does, whatever fuel is left. -/
theorem chain_of_stops {phrase : Phrase} {rest : List Token} (hstops : phrase.Stops rest)
    (operand : Parse Expr) (fuel : Nat) (left : Expr) :
    chain phrase.level operand fuel left rest = .ok (left, rest) := by
  cases fuel with
  | zero => rfl
  | succ fuel => simp [chain, operator?_eq_none_of_stops hstops]

/-- Fuel beyond the number of tokens makes no difference to a chain. -/
theorem chain_fuel_congr {level : Level} {phrase : Phrase} {operand : Parse Expr}
    (hoperand : Reads phrase operand) {fuel fuel' : Nat} {tokens : List Token} (left : Expr)
    (hfuel : tokens.length ≤ fuel) (hfuel' : tokens.length ≤ fuel') :
    chain level operand fuel left tokens = chain level operand fuel' left tokens := by
  induction fuel generalizing fuel' left tokens with
  | zero =>
      have hnil : tokens = [] := List.length_eq_zero_iff.mp (Nat.le_zero.mp hfuel)
      subst hnil
      cases fuel' <;> rfl
  | succ fuel ih =>
      cases fuel' with
      | zero =>
          have hnil : tokens = [] := List.length_eq_zero_iff.mp (Nat.le_zero.mp hfuel')
          subst hnil
          rfl
      | succ fuel' =>
          simp only [chain]
          split
          · rfl
          · next op tail hoperator =>
              obtain ⟨token, symbol, rfl, _, _⟩ := operator?_eq_some_iff.mp hoperator
              rw [List.length_cons] at hfuel hfuel'
              cases hright : operand tail with
              | error failure => rfl
              | ok found =>
                  have hshort := hoperand.length_lt hright
                  exact ih _ (by omega) (by omega)

end Parser

namespace Phrase

open Stylesheet.Parser

/-- The part of the parser that reads a phrase. -/
def parser : Phrase → Nat → Parse Expr
  | expression => Parser.expression
  | unary => Parser.unary
  | primary => Parser.primary
  | phrase => fun budget => operators budget phrase.levels

/-- What is still to be done when a phrase has been read up to some point.  If it joins operands,
its chain may go on there. -/
def resume (phrase : Phrase) (budget : Nat) (left : Expr) (rest : List Token) :
    Except Failure (Expr × List Token) :=
  match phrase.operand? with
  | some tighter => chain phrase.level (operators budget tighter.levels) rest.length left rest
  | none => .ok (left, rest)

/-- An operand of a phrase, or the phrase itself if it joins none, ends in front of these tokens. -/
def Pauses (phrase : Phrase) (rest : List Token) : Prop :=
  (phrase.operand?.getD phrase).Stops rest

/-- The parser reads tokens as a phrase with a tree, whatever may follow them. -/
def Recognizes (phrase : Phrase) (tokens : List Token) (tree : Expr) : Prop :=
  ∀ (budget : Nat) {rest : List Token}, phrase.Pauses rest →
    UnlessTooDeep (phrase.parser (budget + 1) (tokens ++ rest)) (phrase.resume budget tree rest)

theorem pauses_of_stops {phrase : Phrase} {rest : List Token} (hstops : phrase.Stops rest) :
    phrase.Pauses rest := by
  unfold Pauses
  cases hphrase : phrase.operand? with
  | none => exact hstops
  | some tighter => exact hstops.of_rank_le (Nat.le_of_lt (rank_of_operand? hphrase))

theorem resume_of_stops {phrase : Phrase} {rest : List Token} (hstops : phrase.Stops rest)
    (budget : Nat) (left : Expr) : phrase.resume budget left rest = .ok (left, rest) := by
  unfold resume
  split
  · exact chain_of_stops hstops _ _ _
  · rfl

theorem parser_of_operand? {phrase tighter : Phrase} (hphrase : phrase.operand? = some tighter)
    (budget : Nat) : phrase.parser budget = operators budget phrase.levels := by
  cases phrase <;> cases hphrase <;> rfl

theorem Recognizes.parser {phrase : Phrase} {tokens rest : List Token} {tree : Expr}
    (hrecognizes : phrase.Recognizes tokens tree) (hstops : phrase.Stops rest) (budget : Nat) :
    UnlessTooDeep (phrase.parser budget (tokens ++ rest)) (.ok (tree, rest)) := by
  cases budget with
  | zero =>
      have hzero : phrase.parser 0 (tokens ++ rest) = .error .tooDeep := by
        cases phrase <;> rfl
      rw [hzero]
      exact .tooDeep _
  | succ budget =>
      rw [← resume_of_stops hstops budget]
      exact hrecognizes budget (pauses_of_stops hstops)

theorem Recognizes.operators {phrase : Phrase} {tokens rest : List Token} {tree : Expr}
    (hrecognizes : phrase.Recognizes tokens tree) (hchain : phrase.isChain = true)
    (hstops : phrase.Stops rest) (budget : Nat) :
    UnlessTooDeep (operators budget phrase.levels (tokens ++ rest)) (.ok (tree, rest)) := by
  rcases exists_operand?_or_eq_unary hchain with ⟨tighter, hphrase⟩ | rfl
  · rw [← parser_of_operand? hphrase]
    exact hrecognizes.parser hstops budget
  · cases budget with
    | zero => exact .tooDeep _
    | succ budget => exact hrecognizes.parser hstops budget

/-- A first operand leaves the parser in front of the rest of the chain. -/
theorem Recognizes.operand {phrase tighter : Phrase} {tokens : List Token} {tree : Expr}
    (hphrase : phrase.operand? = some tighter) (htree : tighter.Recognizes tokens tree) :
    phrase.Recognizes tokens tree := by
  intro budget rest hpauses
  rw [Pauses, hphrase] at hpauses
  rw [parser_of_operand? hphrase, levels_eq_cons hphrase, Parser.operators]
  refine .bind (htree.operators (isChain_of_operand? hphrase).2 hpauses budget) ?_
  simp only [resume, hphrase]
  exact .refl _

/-- An operator and a further operand leave the parser in front of the rest of the chain again. -/
theorem Recognizes.joined {phrase tighter : Phrase} {symbol : Token.Symbol} {op : BinaryOperator}
    {operator : Token} {left right : List Token} {a b : Expr}
    (hphrase : phrase.operand? = some tighter) (hjoins : phrase.Joins symbol op)
    (hoperator : operator.kind = .symbol symbol) (hleft : phrase.Recognizes left a)
    (hright : tighter.Recognizes right b) :
    phrase.Recognizes (left ++ operator :: right) (.binary op a b) := by
  intro budget rest hpauses
  rw [Pauses, hphrase, Option.getD_some] at hpauses
  have hrank := rank_of_operand? hphrase
  have hfirst : phrase.Pauses (operator :: (right ++ rest)) := by
    rw [Pauses, hphrase, Option.getD_some]
    exact stops_cons hoperator (by rw [rank_of_joins hjoins]; exact hrank)
  have hstart := hleft budget hfirst
  have hlookup := lookup_level_eq_some_iff.mpr hjoins
  have hstep : operator? phrase.level (operator :: (right ++ rest)) = some (op, right ++ rest) :=
    operator?_eq_some_iff.mpr ⟨operator, symbol, rfl, hoperator, hlookup⟩
  have hchain := (isChain_of_operand? hphrase).2
  have hoperand := hright.operators hchain hpauses budget
  rw [List.append_assoc, List.cons_append]
  refine hstart.trans ?_
  simp only [resume, hphrase, List.length_cons, chain, hstep]
  refine .bind hoperand ?_
  have hreads : Reads tighter (Parser.operators budget tighter.levels) :=
    (sound budget).operators hchain
  rw [chain_fuel_congr hreads _ (by simp) (Nat.le_refl rest.length)]
  exact .refl _

theorem Recognizes.plain {tokens : List Token} {tree : Expr}
    (htree : Phrase.or.Recognizes tokens tree) : expression.Recognizes tokens tree := by
  intro budget rest hstops
  have hor : Phrase.or.Stops rest := Stops.of_rank_le hstops (by decide)
  have hnone : accept? .question rest = none := accept?_eq_none_of_stops hstops (by decide)
  refine .bind (htree.operators rfl hor budget) ?_
  simp only [hnone]
  exact .refl _

theorem Recognizes.conditional {question colon : Token} {condition whenTrue whenFalse : List Token}
    {c a b : Expr} (hquestion : question.kind = .symbol .question)
    (hcolon : colon.kind = .symbol .colon) (hcondition : Phrase.or.Recognizes condition c)
    (htrue : expression.Recognizes whenTrue a) (hfalse : expression.Recognizes whenFalse b) :
    expression.Recognizes (condition ++ question :: (whenTrue ++ colon :: whenFalse))
      (.conditional c a b) := by
  intro budget rest hstops
  have hstopsOr : Phrase.or.Stops (question :: (whenTrue ++ colon :: (whenFalse ++ rest))) :=
    stops_cons hquestion (by decide)
  have hstopsTrue : expression.Stops (colon :: (whenFalse ++ rest)) :=
    stops_cons hcolon (by decide)
  have hor := hcondition.operators rfl hstopsOr budget
  have hthen := htrue.parser hstopsTrue budget
  have helse := hfalse.parser hstops budget
  have haccept : accept? .question (question :: (whenTrue ++ colon :: (whenFalse ++ rest))) =
      some (whenTrue ++ colon :: (whenFalse ++ rest)) :=
    accept?_eq_some_iff.mpr ⟨question, rfl, hquestion⟩
  have hexpect : expect .colon .missingColon (colon :: (whenFalse ++ rest)) =
      .ok (whenFalse ++ rest) := expect_eq_ok_iff.mpr ⟨colon, rfl, hcolon⟩
  simp only [List.append_assoc, List.cons_append]
  refine .bind hor ?_
  simp only [haccept]
  refine .bind hthen ?_
  refine .bind (Or.inl hexpect) ?_
  exact .bind helse (.refl _)

theorem Recognizes.not {sign : Token} {tokens : List Token} {tree : Expr}
    (hsign : sign.kind = .symbol .not) (htree : unary.Recognizes tokens tree) :
    unary.Recognizes (sign :: tokens) (.unary .not tree) := by
  intro budget rest hstops
  obtain ⟨kind, position, asWord⟩ := sign
  cases hsign
  exact .bind (htree.parser hstops budget) (.refl _)

theorem Recognizes.negate {sign : Token} {tokens : List Token} {tree : Expr}
    (hsign : sign.kind = .symbol .minus) (htree : unary.Recognizes tokens tree) :
    unary.Recognizes (sign :: tokens) (.unary .negate tree) := by
  intro budget rest hstops
  obtain ⟨kind, position, asWord⟩ := sign
  cases hsign
  exact .bind (htree.parser hstops budget) (.refl _)

theorem Recognizes.plus {sign : Token} {tokens : List Token} {tree : Expr}
    (hsign : sign.kind = .symbol .plus) (htree : unary.Recognizes tokens tree) :
    unary.Recognizes (sign :: tokens) tree := by
  intro budget rest hstops
  obtain ⟨kind, position, asWord⟩ := sign
  cases hsign
  exact htree.parser hstops budget

/-- No sign stands in front of a primary phrase. -/
theorem unary_eq_primary {tokens : List Token} {tree : Expr}
    (hderives : Derives .primary tokens tree) (budget : Nat) (rest : List Token) :
    Parser.unary (budget + 1) (tokens ++ rest) = Parser.primary budget (tokens ++ rest) := by
  cases hderives with
  | operand hphrase _ => cases hphrase
  | joined hphrase _ _ _ _ => cases hphrase
  | @number token _ hkind =>
      obtain ⟨kind, position, asWord⟩ := token
      cases hkind
      rfl
  | @boolean token _ hkind =>
      obtain ⟨kind, position, asWord⟩ := token
      cases hkind
      rfl
  | @name token _ hkind =>
      obtain ⟨kind, position, asWord⟩ := token
      cases hkind
      rfl
  | @call token _ _ _ _ _ hkind _ _ _ _ =>
      obtain ⟨kind, position, asWord⟩ := token
      cases hkind
      rfl
  | @group opening _ _ _ hopening _ _ =>
      obtain ⟨kind, position, asWord⟩ := opening
      cases hopening
      rfl

theorem Recognizes.primary {tokens : List Token} {tree : Expr}
    (hderives : Derives .primary tokens tree) (htree : Phrase.primary.Recognizes tokens tree) :
    unary.Recognizes tokens tree := by
  intro budget rest hstops
  change UnlessTooDeep (Parser.unary (budget + 1) (tokens ++ rest)) (.ok (tree, rest))
  rw [unary_eq_primary hderives]
  exact htree.parser hstops budget

theorem Recognizes.number {token : Token} {value : Float} (hkind : token.kind = .number value) :
    Phrase.primary.Recognizes [token] (.number value) := by
  intro budget rest _
  obtain ⟨kind, position, asWord⟩ := token
  cases hkind
  exact .refl _

theorem Recognizes.boolean {token : Token} {value : Bool} (hkind : token.kind = .boolean value) :
    Phrase.primary.Recognizes [token] (.boolean value) := by
  intro budget rest _
  obtain ⟨kind, position, asWord⟩ := token
  cases hkind
  exact .refl _

/-- A name alone is not the name of a function, as no parenthesis follows it. -/
theorem Recognizes.name {token : Token} {text : String} (hkind : token.kind = .name text) :
    Phrase.primary.Recognizes [token] (.name text) := by
  intro budget rest hstops
  obtain ⟨kind, position, asWord⟩ := token
  cases hkind
  have hnone : accept? .openParen rest = none := accept?_eq_none_of_stops hstops (by decide)
  simp only [Phrase.parser, Parser.primary, List.cons_append, List.nil_append, hnone]
  exact .refl _

theorem Recognizes.group {opening closing : Token} {inner : List Token} {tree : Expr}
    (hopening : opening.kind = .symbol .openParen) (hclosing : closing.kind = .symbol .closeParen)
    (htree : expression.Recognizes inner tree) :
    Phrase.primary.Recognizes (opening :: (inner ++ [closing])) tree := by
  intro budget rest _
  obtain ⟨kind, position, asWord⟩ := opening
  cases hopening
  have hstops : expression.Stops (closing :: rest) := stops_cons hclosing (by decide)
  have hinner := htree.parser hstops budget
  have hexpect : expect .closeParen .unclosedGroup (closing :: rest) = .ok rest :=
    expect_eq_ok_iff.mpr ⟨closing, rfl, hclosing⟩
  simp only [List.cons_append, List.append_assoc, List.nil_append]
  exact .bind hinner (.bind (Or.inl hexpect) (.refl _))

theorem stops_of_behindCommas {phrase : Phrase} {pieces : List (List Token)} {tokens : List Token}
    (hbehind : BehindCommas pieces tokens) {closing : Token} {symbol : Token.Symbol}
    (hclosing : closing.kind = .symbol symbol) (hrank : phrase.rank < symbol.rank)
    (hcomma : phrase.rank < Token.Symbol.comma.rank) {rest : List Token} :
    phrase.Stops (tokens ++ closing :: rest) := by
  cases hbehind with
  | none => exact stops_cons hclosing hrank
  | more hkind _ => exact stops_cons hkind hcomma

/-- Arguments behind commas are found up to the parenthesis that closes them. -/
theorem furtherArguments_of_behindCommas {closing : Token}
    (hclosing : closing.kind = .symbol .closeParen) {further : List (List Token × Expr)}
    (hfurther : ∀ argument ∈ further, expression.Recognizes argument.1 argument.2)
    {tokens : List Token} (hbehind : BehindCommas (further.map Prod.fst) tokens)
    (budget : Nat) {fuel : Nat} {rest : List Token}
    (hfuel : (tokens ++ closing :: rest).length ≤ fuel) (known : List Expr) :
    UnlessTooDeep
      (furtherArguments (Parser.expression budget) fuel known (tokens ++ closing :: rest))
      (.ok (known ++ further.map Prod.snd, closing :: rest)) := by
  induction further generalizing tokens fuel known with
  | nil =>
      cases hbehind
      cases fuel with
      | zero => simp at hfuel
      | succ fuel =>
          have hnone : accept? .comma (closing :: rest) = none :=
            accept?_eq_none_of_ne hclosing (by decide) rest
          simp only [furtherArguments, List.nil_append, hnone, List.map_nil, List.append_nil]
          exact .refl _
  | cons argument further ih =>
      simp only [List.forall_mem_cons] at hfurther
      rw [List.map_cons] at hbehind
      cases hbehind with
      | @more comma _ tokens _ hcomma hrest =>
          cases fuel with
          | zero => simp at hfuel
          | succ fuel =>
              have haccept : accept? .comma
                  (comma :: (argument.1 ++ (tokens ++ closing :: rest))) =
                    some (argument.1 ++ (tokens ++ closing :: rest)) :=
                accept?_eq_some_iff.mpr ⟨comma, rfl, hcomma⟩
              have hstops : expression.Stops (tokens ++ closing :: rest) :=
                stops_of_behindCommas hrest hclosing (by decide) (by decide)
              have hlength : (tokens ++ closing :: rest).length ≤ fuel := by
                simp only [List.cons_append, List.append_assoc, List.length_cons,
                  List.length_append] at hfuel ⊢
                omega
              simp only [furtherArguments, List.cons_append, List.append_assoc, haccept]
              refine .bind (hfurther.1.parser hstops budget) ?_
              simpa using ih hfurther.2 hrest hlength (known ++ [argument.2])

/-- The arguments of a call are found up to the parenthesis that closes them. -/
theorem arguments_of_betweenCommas {closing : Token}
    (hclosing : closing.kind = .symbol .closeParen) {arguments : List (List Token × Expr)}
    (hderives : ∀ argument ∈ arguments, Derives .expression argument.1 argument.2)
    (harguments : ∀ argument ∈ arguments, expression.Recognizes argument.1 argument.2)
    {inner : List Token} (hinner : BetweenCommas (arguments.map Prod.fst) inner) (budget : Nat)
    (rest : List Token) :
    UnlessTooDeep (Parser.arguments budget (inner ++ closing :: rest))
      (.ok (arguments.map Prod.snd, rest)) := by
  cases budget with
  | zero => exact .tooDeep _
  | succ budget =>
      cases arguments with
      | nil =>
          cases hinner
          have haccept : accept? .closeParen (closing :: rest) = some rest :=
            accept?_eq_some_iff.mpr ⟨closing, rfl, hclosing⟩
          simp only [Parser.arguments, List.nil_append, haccept]
          exact .refl _
      | cons first further =>
          simp only [List.forall_mem_cons] at hderives harguments
          rw [List.map_cons] at hinner
          cases hinner with
          | @some _ tokens _ hbehind =>
              have hnone : accept? .closeParen (first.1 ++ (tokens ++ closing :: rest)) = none := by
                obtain ⟨token, tail, hfirst, hstarts⟩ := hderives.1.exists_cons
                rw [hfirst, List.cons_append]
                exact accept?_closeParen_of_startsPhrase hstarts _
              have hstops : expression.Stops (tokens ++ closing :: rest) :=
                stops_of_behindCommas hbehind hclosing (by decide) (by decide)
              have hexpect : expect .closeParen .unclosedArguments (closing :: rest) = .ok rest :=
                expect_eq_ok_iff.mpr ⟨closing, rfl, hclosing⟩
              simp only [Parser.arguments, List.append_assoc, hnone]
              refine .bind (harguments.1.parser hstops budget) ?_
              refine .bind (furtherArguments_of_behindCommas hclosing harguments.2 hbehind budget
                (Nat.le_refl _) [first.2]) ?_
              exact .bind (Or.inl hexpect) (.refl _)

theorem Recognizes.call {token opening closing : Token} {text : String}
    {arguments : List (List Token × Expr)} {inner : List Token} (hkind : token.kind = .name text)
    (hopening : opening.kind = .symbol .openParen) (hclosing : closing.kind = .symbol .closeParen)
    (hinner : BetweenCommas (arguments.map Prod.fst) inner)
    (hderives : ∀ argument ∈ arguments, Derives .expression argument.1 argument.2)
    (harguments : ∀ argument ∈ arguments, expression.Recognizes argument.1 argument.2) :
    Phrase.primary.Recognizes (token :: opening :: (inner ++ [closing]))
      (.call text (arguments.map Prod.snd)) := by
  intro budget rest _
  obtain ⟨kind, position, asWord⟩ := token
  cases hkind
  have haccept : accept? .openParen (opening :: (inner ++ closing :: rest)) =
      some (inner ++ closing :: rest) := accept?_eq_some_iff.mpr ⟨opening, rfl, hopening⟩
  simp only [Phrase.parser, Parser.primary, List.cons_append, List.append_assoc, List.nil_append,
    haccept]
  exact .bind (arguments_of_betweenCommas hclosing hderives harguments hinner budget rest) (.refl _)

/-- The induction is on the derivation, with a lemma for each rule of the grammar. -/
theorem recognizes_of_derives {phrase : Phrase} {tokens : List Token} {tree : Expr}
    (hderives : Derives phrase tokens tree) : phrase.Recognizes tokens tree := by
  induction hderives with
  | plain _ ih => exact ih.plain
  | conditional hquestion hcolon _ _ _ ihc iha ihb =>
      exact .conditional hquestion hcolon ihc iha ihb
  | operand hphrase _ ih => exact .operand hphrase ih
  | joined hphrase hjoins hoperator _ _ ihl ihr => exact .joined hphrase hjoins hoperator ihl ihr
  | not hsign _ ih => exact .not hsign ih
  | negate hsign _ ih => exact .negate hsign ih
  | plus hsign _ ih => exact .plus hsign ih
  | primary hderives ih => exact .primary hderives ih
  | number hkind => exact .number hkind
  | boolean hkind => exact .boolean hkind
  | name hkind => exact .name hkind
  | call hkind hopening hclosing hinner hderives ih =>
      exact .call hkind hopening hclosing hinner hderives ih
  | group hopening hclosing _ ih => exact .group hopening hclosing ih

end Phrase

namespace Parser

/-- The tokens in front of the end are all of the list, or an end token follows them. -/
theorem exists_eq_beforeFinish_append (tokens : List Token) :
    ∃ rest, tokens = beforeFinish tokens ++ rest ∧ ∀ token ∈ rest.head?, token.isFinish = true := by
  refine ⟨tokens.dropWhile fun token => !token.isFinish, ?_, ?_⟩
  · exact (List.takeWhile_append_dropWhile).symm
  · intro token htoken
    have hhead := List.head?_dropWhile_not (fun token : Token => !token.isFinish) tokens
    rw [Option.mem_def.mp htoken] at hhead
    simpa using hhead

/-- A tree that is derived is what parsing gives, unless the budget is used up. -/
theorem parseWithin_of_derives {tokens : List Token} {tree : Expr}
    (hderives : Derives .expression (beforeFinish tokens) tree) (budget : Nat) :
    UnlessTooDeep (parseWithin budget tokens) (.ok tree) := by
  obtain ⟨rest, htokens, hrest⟩ := exists_eq_beforeFinish_append tokens
  have hstops : Phrase.expression.Stops rest := by
    intro token htoken symbol hkind
    have hfinish := hrest token htoken
    simp [Token.isFinish, hkind] at hfinish
  have hparse := (Phrase.recognizes_of_derives hderives).parser hstops budget
  rw [← htokens] at hparse
  obtain ⟨first, tail, hfirst, hstarts⟩ := hderives.exists_cons
  rw [hfirst] at htokens
  unfold parseWithin
  split
  · simp at htokens
  · cases htokens
    simp [Token.startsPhrase] at hstarts
  · refine .bind hparse ?_
    dsimp only
    split
    · exact .refl _
    · exact .refl _
    · next hnil hcons =>
        exfalso
        cases rest with
        | nil => exact hnil rfl
        | cons token rest =>
            obtain ⟨kind, position, asWord⟩ := token
            have hfinish := hrest _ rfl
            cases kind with
            | finish => exact hcons position asWord rest rfl
            | _ => simp [Token.isFinish] at hfinish

end Parser

end Stylesheet
