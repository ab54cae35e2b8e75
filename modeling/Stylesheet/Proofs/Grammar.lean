import Stylesheet.Expression.Parser

/-!
# The grammar of expressions

Which tree a list of tokens can be read as, said without a parser: one rule for each production,
operators of one level joined to the left, and no node for parentheses and plus signs.
-/

namespace Stylesheet

/-- The phrases of the grammar, from the loosest to the tightest. -/
inductive Phrase where
  | expression
  | or
  | and
  | comparison
  | sum
  | product
  | unary
  | primary
deriving DecidableEq, Repr

namespace Phrase

/-- What a phrase joins by operators. -/
def operand? : Phrase → Option Phrase
  | or => some and
  | and => some comparison
  | comparison => some sum
  | sum => some product
  | product => some unary
  | _ => none

/-- The symbols that join the operands of a phrase, and the operators that they stand for. -/
inductive Joins : Phrase → Token.Symbol → BinaryOperator → Prop where
  | or : Joins .or .or .or
  | and : Joins .and .and .and
  | equal : Joins .comparison .equal .equal
  | notEqual : Joins .comparison .notEqual .notEqual
  | less : Joins .comparison .less .less
  | lessEqual : Joins .comparison .lessEqual .lessEqual
  | greater : Joins .comparison .greater .greater
  | greaterEqual : Joins .comparison .greaterEqual .greaterEqual
  | add : Joins .sum .plus .add
  | subtract : Joins .sum .minus .subtract
  | multiply : Joins .product .times .multiply
  | divide : Joins .product .divide .divide
  | modulo : Joins .product .modulo .modulo

end Phrase

/-- The pieces of a list of tokens that each stand behind a comma. -/
inductive BehindCommas : List (List Token) → List Token → Prop where
  | none : BehindCommas [] []
  | more {comma : Token} {piece tokens : List Token} {pieces : List (List Token)}
      (hcomma : comma.kind = .symbol .comma) (hrest : BehindCommas pieces tokens) :
      BehindCommas (piece :: pieces) (comma :: (piece ++ tokens))

/-- The pieces of a list of tokens with commas between them. -/
inductive BetweenCommas : List (List Token) → List Token → Prop where
  | none : BetweenCommas [] []
  | some {piece tokens : List Token} {pieces : List (List Token)}
      (hrest : BehindCommas pieces tokens) : BetweenCommas (piece :: pieces) (piece ++ tokens)

/-- The grammar: the trees that tokens can be read as when they are taken as one phrase. -/
inductive Derives : Phrase → List Token → Expr → Prop where
  | plain {tokens : List Token} {tree : Expr} (htree : Derives .or tokens tree) :
      Derives .expression tokens tree
  | conditional {question colon : Token} {condition whenTrue whenFalse : List Token}
      {c a b : Expr} (hquestion : question.kind = .symbol .question)
      (hcolon : colon.kind = .symbol .colon) (hcondition : Derives .or condition c)
      (htrue : Derives .expression whenTrue a) (hfalse : Derives .expression whenFalse b) :
      Derives .expression (condition ++ question :: (whenTrue ++ colon :: whenFalse))
        (.conditional c a b)
  | operand {phrase tighter : Phrase} {tokens : List Token} {tree : Expr}
      (hphrase : phrase.operand? = some tighter) (htree : Derives tighter tokens tree) :
      Derives phrase tokens tree
  | joined {phrase tighter : Phrase} {symbol : Token.Symbol} {op : BinaryOperator}
      {operator : Token} {left right : List Token} {a b : Expr}
      (hphrase : phrase.operand? = some tighter) (hjoins : phrase.Joins symbol op)
      (hoperator : operator.kind = .symbol symbol) (hleft : Derives phrase left a)
      (hright : Derives tighter right b) :
      Derives phrase (left ++ operator :: right) (.binary op a b)
  | not {sign : Token} {tokens : List Token} {tree : Expr} (hsign : sign.kind = .symbol .not)
      (htree : Derives .unary tokens tree) : Derives .unary (sign :: tokens) (.unary .not tree)
  | negate {sign : Token} {tokens : List Token} {tree : Expr} (hsign : sign.kind = .symbol .minus)
      (htree : Derives .unary tokens tree) :
      Derives .unary (sign :: tokens) (.unary .negate tree)
  | plus {sign : Token} {tokens : List Token} {tree : Expr} (hsign : sign.kind = .symbol .plus)
      (htree : Derives .unary tokens tree) : Derives .unary (sign :: tokens) tree
  | primary {tokens : List Token} {tree : Expr} (htree : Derives .primary tokens tree) :
      Derives .unary tokens tree
  | number {token : Token} {value : Float} (hkind : token.kind = .number value) :
      Derives .primary [token] (.number value)
  | boolean {token : Token} {value : Bool} (hkind : token.kind = .boolean value) :
      Derives .primary [token] (.boolean value)
  | name {token : Token} {text : String} (hkind : token.kind = .name text) :
      Derives .primary [token] (.name text)
  | call {token opening closing : Token} {text : String} {arguments : List (List Token × Expr)}
      {inner : List Token} (hkind : token.kind = .name text)
      (hopening : opening.kind = .symbol .openParen)
      (hclosing : closing.kind = .symbol .closeParen)
      (hinner : BetweenCommas (arguments.map Prod.fst) inner)
      (harguments : ∀ argument ∈ arguments, Derives .expression argument.1 argument.2) :
      Derives .primary (token :: opening :: (inner ++ [closing]))
        (.call text (arguments.map Prod.snd))
  | group {opening closing : Token} {inner : List Token} {tree : Expr}
      (hopening : opening.kind = .symbol .openParen)
      (hclosing : closing.kind = .symbol .closeParen) (htree : Derives .expression inner tree) :
      Derives .primary (opening :: (inner ++ [closing])) tree

namespace Token

/-- Whether a token is the end of a source. -/
def isFinish (token : Token) : Bool :=
  match token.kind with
  | .finish => true
  | _ => false

/-- Whether a phrase can start with a token. -/
def startsPhrase (token : Token) : Bool :=
  match token.kind with
  | .number _ | .boolean _ | .name _ => true
  | .symbol s => s ∈ [Symbol.not, .minus, .plus, .openParen]
  | .finish => false

end Token

/-- The tokens in front of the first end token. -/
def beforeFinish (tokens : List Token) : List Token :=
  tokens.takeWhile fun token => !token.isFinish

theorem isFinish_of_symbol {token : Token} {symbol : Token.Symbol}
    (hkind : token.kind = .symbol symbol) : token.isFinish = false := by
  simp [Token.isFinish, hkind]

/-- A phrase has a first token, and it is one that phrases start with. -/
theorem Derives.exists_cons {phrase : Phrase} {tokens : List Token} {tree : Expr}
    (hderives : Derives phrase tokens tree) :
    ∃ first rest, tokens = first :: rest ∧ first.startsPhrase = true := by
  induction hderives with
  | plain _ ih => exact ih
  | conditional _ _ _ _ _ ih _ _ =>
      obtain ⟨first, rest, rfl, hfirst⟩ := ih
      exact ⟨first, _, rfl, hfirst⟩
  | operand _ _ ih => exact ih
  | joined _ _ _ _ _ ih _ =>
      obtain ⟨first, rest, rfl, hfirst⟩ := ih
      exact ⟨first, _, rfl, hfirst⟩
  | not hsign _ _ => exact ⟨_, _, rfl, by simp [Token.startsPhrase, hsign]⟩
  | negate hsign _ _ => exact ⟨_, _, rfl, by simp [Token.startsPhrase, hsign]⟩
  | plus hsign _ _ => exact ⟨_, _, rfl, by simp [Token.startsPhrase, hsign]⟩
  | primary _ ih => exact ih
  | number hkind => exact ⟨_, _, rfl, by simp [Token.startsPhrase, hkind]⟩
  | boolean hkind => exact ⟨_, _, rfl, by simp [Token.startsPhrase, hkind]⟩
  | name hkind => exact ⟨_, _, rfl, by simp [Token.startsPhrase, hkind]⟩
  | call hkind _ _ _ _ _ => exact ⟨_, _, rfl, by simp [Token.startsPhrase, hkind]⟩
  | group hopening _ _ _ => exact ⟨_, _, rfl, by simp [Token.startsPhrase, hopening]⟩

theorem BehindCommas.isFinish_eq_false {pieces : List (List Token)} {tokens : List Token}
    (hbehind : BehindCommas pieces tokens)
    (hpieces : ∀ piece ∈ pieces, ∀ token ∈ piece, token.isFinish = false) :
    ∀ token ∈ tokens, token.isFinish = false := by
  induction hbehind with
  | none => simp
  | more hcomma _ ih =>
      simp only [List.forall_mem_cons] at hpieces
      simp only [List.forall_mem_cons, List.forall_mem_append]
      exact ⟨isFinish_of_symbol hcomma, hpieces.1, ih hpieces.2⟩

theorem BetweenCommas.isFinish_eq_false {pieces : List (List Token)} {tokens : List Token}
    (hbetween : BetweenCommas pieces tokens)
    (hpieces : ∀ piece ∈ pieces, ∀ token ∈ piece, token.isFinish = false) :
    ∀ token ∈ tokens, token.isFinish = false := by
  cases hbetween with
  | none => simp
  | some hbehind =>
      simp only [List.forall_mem_cons] at hpieces
      simp only [List.forall_mem_append]
      exact ⟨hpieces.1, hbehind.isFinish_eq_false hpieces.2⟩

/-- No phrase reaches over the end of a source. -/
theorem Derives.isFinish_eq_false {phrase : Phrase} {tokens : List Token} {tree : Expr}
    (hderives : Derives phrase tokens tree) : ∀ token ∈ tokens, token.isFinish = false := by
  induction hderives with
  | plain _ ih => exact ih
  | conditional hquestion hcolon _ _ _ ihc iha ihb =>
      simp only [List.forall_mem_append, List.forall_mem_cons]
      exact ⟨ihc, isFinish_of_symbol hquestion, iha, isFinish_of_symbol hcolon, ihb⟩
  | operand _ _ ih => exact ih
  | joined _ _ hoperator _ _ iha ihb =>
      simp only [List.forall_mem_append, List.forall_mem_cons]
      exact ⟨iha, isFinish_of_symbol hoperator, ihb⟩
  | not hsign _ ih => exact List.forall_mem_cons.2 ⟨isFinish_of_symbol hsign, ih⟩
  | negate hsign _ ih => exact List.forall_mem_cons.2 ⟨isFinish_of_symbol hsign, ih⟩
  | plus hsign _ ih => exact List.forall_mem_cons.2 ⟨isFinish_of_symbol hsign, ih⟩
  | primary _ ih => exact ih
  | number hkind => simp [Token.isFinish, hkind]
  | boolean hkind => simp [Token.isFinish, hkind]
  | name hkind => simp [Token.isFinish, hkind]
  | call hkind hopening hclosing hinner _ ih =>
      have hpieces := hinner.isFinish_eq_false (by simpa using ih)
      simp only [List.forall_mem_cons, List.forall_mem_append]
      exact ⟨by simp [Token.isFinish, hkind], isFinish_of_symbol hopening, hpieces,
        isFinish_of_symbol hclosing, by simp⟩
  | group hopening hclosing _ ih =>
      simp only [List.forall_mem_cons, List.forall_mem_append]
      exact ⟨isFinish_of_symbol hopening, ih, isFinish_of_symbol hclosing, by simp⟩

/-- A phrase that goes up to an end token, or up to the end of the list, is all that stands in front
of the first end token. -/
theorem Derives.eq_beforeFinish {phrase : Phrase} {used rest : List Token} {tree : Expr}
    (hderives : Derives phrase used tree) (hrest : ∀ token ∈ rest.head?, token.isFinish = true) :
    used = beforeFinish (used ++ rest) := by
  have hused : ∀ token ∈ used, (!token.isFinish) = true := by
    simpa using hderives.isFinish_eq_false
  rw [beforeFinish, List.takeWhile_append_of_pos hused]
  cases rest with
  | nil => simp
  | cons token rest => simp [hrest token (by simp)]

end Stylesheet
