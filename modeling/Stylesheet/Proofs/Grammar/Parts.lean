import Stylesheet.Proofs.Grammar.Recognition

/-!
# The parser in parts

The parser is put together from parts that take a token or leave it, as its kind tells, from
sequences, and from loops of both.  What is proved for each way of putting parts together holds of
the parser.
-/

namespace Stylesheet

namespace Parser

variable {α β σ : Type} {tokens : List Token}

/-! ## Parts -/

def done (a : α) : Parse α :=
  fun tokens => .ok (a, tokens)

def fault (what : SyntaxFault) : Parse α :=
  fun tokens => .error (.malformed ⟨what, tokens⟩)

/-- One parser and then another. -/
def andThen (first : Parse α) (second : α → Parse β) : Parse β :=
  fun tokens => first tokens >>= fun (a, rest) => second a rest

/-- Take the first token if there is something to do behind a token of its kind. -/
def onFirst (behind : Token.Kind → Option (Parse α)) (other : Parse α) : Parse α
  | [] => other []
  | token :: rest => match behind token.kind with
    | some next => next rest
    | none => other (token :: rest)

/-- Go on behind one symbol. -/
def only (symbol : Token.Symbol) (next : Parse α) : Token.Kind → Option (Parse α)
  | .symbol s => if s = symbol then some next else none
  | _ => none

/-- Take steps as long as the first token tells how. -/
def loop (step : σ → Token.Kind → Option (Parse σ)) : Nat → σ → Parse σ
  | 0, state => done state
  | fuel + 1, state =>
      onFirst (fun kind => (step state kind).map fun next => andThen next (loop step fuel))
        (done state)

/-- A loop with fuel for every token. -/
def rounds (step : σ → Token.Kind → Option (Parse σ)) (state : σ) : Parse σ :=
  fun tokens => loop step tokens.length state tokens

def require (symbol : Token.Symbol) (what : SyntaxFault) (next : Parse α) : Parse α :=
  onFirst (only symbol next) (fault what)

/-- What may be done behind a condition. -/
def branches (expression : Parse Expr) (condition : Expr) : Parse Expr :=
  andThen expression fun whenTrue =>
    require .colon .missingColon (andThen expression fun whenFalse =>
      done (.conditional condition whenTrue whenFalse))

/-- A step of a chain: an operator and a further operand. -/
def joining (level : Level) (operand : Parse Expr) (left : Expr) :
    Token.Kind → Option (Parse Expr)
  | .symbol s => (level.lookup s).map fun op =>
      andThen operand fun right => done (.binary op left right)
  | _ => none

/-- A step of a list of arguments: a comma and a further argument. -/
def listing (argument : Parse Expr) (arguments : List Expr) :
    Token.Kind → Option (Parse (List Expr)) :=
  only .comma (andThen argument fun next => done (arguments ++ [next]))

/-- What is done behind the first argument of a call. -/
def otherArguments (argument : Parse Expr) (first : Expr) : Parse (List Expr) :=
  andThen (rounds (listing argument) [first]) fun arguments =>
    require .closeParen .unclosedArguments (done arguments)

/-- What is done behind a parenthesis that is none of a call. -/
def group (expression : Parse Expr) : Parse Expr :=
  andThen expression fun inner => require .closeParen .unclosedGroup (done inner)

def signed (operand : Parse Expr) : Token.Kind → Option (Parse Expr)
  | .symbol .not => some (andThen operand fun tree => done (.unary .not tree))
  | .symbol .minus => some (andThen operand fun tree => done (.unary .negate tree))
  | .symbol .plus => some operand
  | _ => none

/-- What is done behind a name: with a parenthesis behind it, it is that of a function. -/
def named (arguments : Parse (List Expr)) (text : String) : Parse Expr :=
  onFirst (only .openParen (andThen arguments fun trees => done (.call text trees)))
    (done (.name text))

/-- What is done behind the first token of a primary expression. -/
def started (expression : Parse Expr) (arguments : Parse (List Expr)) :
    Token.Kind → Option (Parse Expr)
  | .number value => some (done (.number value))
  | .boolean value => some (done (.boolean value))
  | .name text => some (named arguments text)
  | .symbol .openParen => some (group expression)
  | _ => none

theorem eq_of_only_eq_some {symbol : Token.Symbol} {next found : Parse α} {kind : Token.Kind}
    (hfound : only symbol next kind = some found) : found = next ∧ kind = .symbol symbol := by
  unfold only at hfound
  split at hfound
  · obtain ⟨rfl, hnext⟩ := Option.ite_none_right_eq_some.mp hfound
    exact ⟨(Option.some.inj hnext).symm, rfl⟩
  · cases hfound

theorem forall_only {symbol : Token.Symbol} {next : Parse α} {P : Parse α → Prop} (hnext : P next)
    (kind : Token.Kind) (found : Parse α) (hfound : only symbol next kind = some found) :
    P found :=
  (eq_of_only_eq_some hfound).1 ▸ hnext

theorem onFirst_only (symbol : Token.Symbol) (next other : Parse α) (tokens : List Token) :
    onFirst (only symbol next) other tokens = match accept? symbol tokens with
      | some rest => next rest
      | none => other tokens := by
  rcases tokens with - | ⟨⟨kind, position, asWord⟩, rest⟩
  · rfl
  · cases kind with
    | symbol s =>
        by_cases hs : s = symbol
        · simp [onFirst, only, accept?, hs]
        · simp [onFirst, only, accept?, hs]
    | number _ => rfl
    | boolean _ => rfl
    | name _ => rfl
    | finish => rfl

/-- Behind the first of these tokens, if there is one, there is nothing to do. -/
def Declines (behind : Token.Kind → Option (Parse α)) (tokens : List Token) : Prop :=
  ∀ token ∈ tokens.head?, behind token.kind = none

theorem onFirst_of_declines {behind : Token.Kind → Option (Parse α)} {tokens : List Token}
    (hdeclines : Declines behind tokens) (other : Parse α) :
    onFirst behind other tokens = other tokens := by
  rcases tokens with - | ⟨token, rest⟩
  · rfl
  · simp only [onFirst, hdeclines token rfl]

theorem onFirst_of_some {behind : Token.Kind → Option (Parse α)} {token : Token} {next : Parse α}
    (hnext : behind token.kind = some next) (other : Parse α) (rest : List Token) :
    onFirst behind other (token :: rest) = next rest := by
  simp only [onFirst, hnext]

theorem onFirst_cases (behind : Token.Kind → Option (Parse α)) (tokens : List Token) :
    Declines behind tokens ∨
      ∃ token rest next, tokens = token :: rest ∧ behind token.kind = some next := by
  rcases tokens with - | ⟨token, rest⟩
  · exact Or.inl nofun
  · cases hnext : behind token.kind with
    | none => exact Or.inl (by simpa [Declines] using hnext)
    | some next => exact Or.inr ⟨token, rest, next, rfl, hnext⟩

theorem require_eq (symbol : Token.Symbol) (what : SyntaxFault) (next : Parse α)
    (tokens : List Token) :
    require symbol what next tokens = expect symbol what tokens >>= next := by
  rw [require, onFirst_only, expect]
  cases accept? symbol tokens <;> rfl

/-! ## The parts of the parser -/

theorem expression_succ_eq (budget : Nat) :
    expression (budget + 1) = andThen (operators budget levels) fun condition =>
      onFirst (only .question (branches (expression budget) condition)) (done condition) := by
  funext tokens
  rw [expression, andThen]
  congr 1
  funext found
  obtain ⟨condition, rest⟩ := found
  simp only [onFirst_only]
  cases accept? .question rest with
  | none => rfl
  | some behind =>
      simp only [branches, andThen, require_eq]
      rfl

theorem chain_eq_loop (level : Level) (operand : Parse Expr) (fuel : Nat) (left : Expr) :
    chain level operand fuel left = loop (joining level operand) fuel left := by
  induction fuel generalizing left with
  | zero => rfl
  | succ fuel ih =>
      funext tokens
      rcases tokens with - | ⟨⟨kind, position, asWord⟩, rest⟩
      · rfl
      · cases kind with
        | symbol s =>
            simp only [chain, operator?, loop, onFirst, joining]
            cases level.lookup s with
            | none => rfl
            | some op =>
                simp only [Option.map_some, ih, andThen, bind_assoc]
                rfl
        | number _ => rfl
        | boolean _ => rfl
        | name _ => rfl
        | finish => rfl

theorem furtherArguments_eq_loop (argument : Parse Expr) (fuel : Nat) (arguments : List Expr) :
    furtherArguments argument fuel arguments = loop (listing argument) fuel arguments := by
  induction fuel generalizing arguments with
  | zero => rfl
  | succ fuel ih =>
      funext tokens
      rcases tokens with - | ⟨⟨kind, position, asWord⟩, rest⟩
      · rfl
      · cases kind with
        | symbol s =>
            simp only [furtherArguments, accept?, loop, onFirst, listing, only]
            by_cases hs : s = .comma
            · simp only [if_pos hs, Option.map_some, ih, andThen, bind_assoc]
              rfl
            · simp only [if_neg hs, Option.map_none]
              rfl
        | number _ => rfl
        | boolean _ => rfl
        | name _ => rfl
        | finish => rfl

theorem operators_succ_cons_eq (budget : Nat) (level : Level) (tighter : List Level) :
    operators (budget + 1) (level :: tighter) =
      andThen (operators budget tighter) (rounds (joining level (operators budget tighter))) := by
  funext tokens
  rw [operators, andThen]
  congr 1
  funext found
  obtain ⟨left, rest⟩ := found
  exact congrFun (chain_eq_loop level _ rest.length left) rest

theorem unary_succ_eq (budget : Nat) :
    unary (budget + 1) = onFirst (signed (unary budget)) (primary budget) := by
  funext tokens
  rcases tokens with - | ⟨⟨kind, position, asWord⟩, rest⟩
  · rfl
  · cases kind with
    | symbol s => cases s <;> rfl
    | number _ => rfl
    | boolean _ => rfl
    | name _ => rfl
    | finish => rfl

theorem primary_succ_eq (budget : Nat) :
    primary (budget + 1) =
      onFirst (started (expression budget) (arguments budget)) (fault .unexpected) := by
  funext tokens
  rcases tokens with - | ⟨⟨kind, position, asWord⟩, rest⟩
  · rfl
  · cases kind with
    | symbol s =>
        cases s with
        | openParen =>
            simp only [primary, onFirst, started, group, andThen, require_eq]
            rfl
        | _ => rfl
    | name text =>
        change _ = named (arguments budget) text rest
        rw [named, onFirst_only, primary]
        cases accept? .openParen rest <;> rfl
    | number _ => rfl
    | boolean _ => rfl
    | finish => rfl

theorem arguments_succ_eq (budget : Nat) :
    arguments (budget + 1) = onFirst (only .closeParen (done []))
      (andThen (expression budget) (otherArguments (expression budget))) := by
  funext tokens
  rw [onFirst_only, arguments]
  cases accept? .closeParen tokens with
  | some rest => rfl
  | none =>
      simp only [andThen, otherArguments, furtherArguments_eq_loop, require_eq]
      rfl

/-- Whether the tokens of a source end here. -/
def AtEnd (tokens : List Token) : Prop :=
  ∀ token ∈ tokens.head?, token.isFinish = true

/-- One parser at the end of a source and another in front of it. -/
def onEnd (atEnd inFront : Parse α) : Parse α
  | [] => atEnd []
  | token :: rest => if token.isFinish then atEnd (token :: rest) else inFront (token :: rest)

/-- The expression of a whole list of tokens, up to its end token. -/
def whole (budget : Nat) : Parse Expr :=
  onEnd (fault .empty)
    (andThen (expression budget) fun tree => onEnd (done tree) (fault .unexpected))

theorem onEnd_of_atEnd (hend : AtEnd tokens) (atEnd inFront : Parse α) :
    onEnd atEnd inFront tokens = atEnd tokens := by
  rcases tokens with - | ⟨token, rest⟩
  · rfl
  · simp [onEnd, hend token rfl]

theorem onEnd_of_not_atEnd (hend : ¬ AtEnd tokens) (atEnd inFront : Parse α) :
    onEnd atEnd inFront tokens = inFront tokens := by
  rcases tokens with - | ⟨token, rest⟩
  · exact absurd nofun hend
  · have hnot : token.isFinish = false := by simpa [AtEnd] using hend
    simp [onEnd, hnot]

theorem parseWithin_eq_map_whole (budget : Nat) (tokens : List Token) :
    parseWithin budget tokens = (whole budget tokens).map Prod.fst := by
  unfold parseWithin
  split
  · rfl
  · rfl
  · next hnil hfinish =>
      have hend : ¬ AtEnd tokens := by
        intro hend
        rcases tokens with - | ⟨⟨kind, position, asWord⟩, rest⟩
        · exact hnil rfl
        · cases kind <;> simp_all [AtEnd, Token.isFinish]
      rw [whole, onEnd_of_not_atEnd hend, andThen]
      cases expression budget tokens with
      | error failure => rfl
      | ok found =>
          obtain ⟨tree, - | ⟨⟨kind, position, asWord⟩, rest⟩⟩ := found
          · rfl
          · cases kind <;> rfl

end Parser

end Stylesheet
