import Stylesheet.Proofs.Grammar.Parts
import Stylesheet.Proofs.Grammar.Position

/-!
# Progress and bounds of the parser

A routine of the parser that returns has taken at least one token, and never the end token, so its
position is that of a token.  Only a parser that stops short can be behind the end token, by one
position.  The walk with a position ends as the parser does that drops the tokens which it takes.
-/

namespace Stylesheet

namespace Walk

open Stylesheet.Parser (Level levels Failure Parse)

variable {α β : Type} {tokens : List Token} {least start : Nat}

/-- Tokens of which the last one, and no other, is an end token. -/
def EndsOnce (tokens : List Token) : Prop :=
  ∃ before finish, tokens = before ++ [finish] ∧ finish.isFinish = true ∧
    ∀ token ∈ before, token.isFinish = false

/-- A mark that is no trace of a look behind the end, or of a routine that has returned without
moving on or from behind the end. -/
def Mark.IsInside (tokens : List Token) : Mark → Prop
  | look position index => index = position ∧ position < tokens.length
  | returned _ start stop => start < stop ∧ stop < tokens.length

/-- What stops a walk when the parser fails. -/
def Halt.ofFailure : Failure → Halt
  | .malformed e => .malformed e.fault e.token
  | .tooDeep => .tooDeep

/-- A walk ends as a parser does that was given the tokens from its start on: with the same tree and
at the first token that the parser has left, or for the same reason. -/
inductive EndsAs (tokens : List Token) (run : Run α) :
    Except Failure (α × List Token) → Prop where
  | ok {a : α} (houtcome : run.outcome = .ok a) :
      EndsAs tokens run (.ok (a, tokens.drop run.position))
  | error {failure : Failure} (houtcome : run.outcome = .error (.ofFailure failure)) :
      EndsAs tokens run (.error failure)

/-- A walk that ends as a parser does, stays among the tokens, and moves on if it comes to its
end. -/
structure Tracks (tokens : List Token) (least start : Nat) (run : Run α)
    (result : Except Failure (α × List Token)) : Prop where
  ends : EndsAs tokens run result
  inside : ∀ mark ∈ run.marks, mark.IsInside tokens
  position_le : run.position ≤ tokens.length
  advances {a : α} (houtcome : run.outcome = .ok a) :
    start + least ≤ run.position ∧ run.position < tokens.length

/-- A walk that tracks a parser from every token on. -/
def Follows (tokens : List Token) (least : Nat) (walk : Walk α) (parse : Parse α) : Prop :=
  ∀ start < tokens.length, Tracks tokens least start (walk start) (parse (tokens.drop start))

/-! ## Sequences -/

theorem bind_of_ok {walk : Walk α} {next : α → Walk β} {a : α} {stop : Nat} {marks : List Mark}
    (hwalk : walk start = ⟨.ok a, stop, marks⟩) :
    (walk >>= next) start =
      ⟨(next a stop).outcome, (next a stop).position, marks ++ (next a stop).marks⟩ := by
  show Walk.bind walk next start = _
  simp only [Walk.bind, hwalk]

theorem bind_of_error {walk : Walk α} {next : α → Walk β} {why : Halt} {stop : Nat}
    {marks : List Mark} (hwalk : walk start = ⟨.error why, stop, marks⟩) :
    (walk >>= next) start = ⟨.error why, stop, marks⟩ := by
  show Walk.bind walk next start = _
  simp only [Walk.bind, hwalk]

/-- A walk goes on from where another one has ended. -/
theorem Tracks.after {walk : Walk α} {next : α → Walk β} {a : α} {stop further : Nat}
    {marks : List Mark} {result : Except Failure (β × List Token)}
    (hwalk : walk start = ⟨.ok a, stop, marks⟩) (hinside : ∀ mark ∈ marks, mark.IsInside tokens)
    (hnext : Tracks tokens further stop (next a stop) result)
    (hleast : start + least ≤ stop + further) :
    Tracks tokens least start ((walk >>= next) start) result := by
  rw [bind_of_ok hwalk]
  refine ⟨?_, ?_, hnext.position_le, fun {b} houtcome => ?_⟩
  · cases hnext.ends with
    | ok houtcome => exact .ok houtcome
    | error houtcome => exact .error houtcome
  · intro mark hmark
    rcases List.mem_append.mp hmark with hmark | hmark
    · exact hinside mark hmark
    · exact hnext.inside mark hmark
  · obtain ⟨hmoved, hstop⟩ := hnext.advances houtcome
    exact ⟨Nat.le_trans hleast hmoved, hstop⟩

theorem tracks_error {marks : List Mark} {stop : Nat}
    (hinside : ∀ mark ∈ marks, mark.IsInside tokens) (hstop : stop ≤ tokens.length)
    (failure : Failure) :
    Tracks tokens least start (⟨.error (.ofFailure failure), stop, marks⟩ : Run α)
      (.error failure) where
  ends := .error rfl
  inside := hinside
  position_le := hstop
  advances houtcome := nomatch houtcome

theorem tracks_halt (failure : Failure) (hstart : start ≤ tokens.length) :
    Tracks tokens least start ((halt (.ofFailure failure) : Walk α) start) (.error failure) :=
  tracks_error (List.forall_mem_nil _) hstart failure

theorem follows_done (a : α) : Follows tokens 0 (pure a) (Parser.done a) := fun _ hstart =>
  { ends := .ok rfl
    inside := List.forall_mem_nil _
    position_le := Nat.le_of_lt hstart
    advances := fun _ => ⟨Nat.le_refl _, hstart⟩ }

theorem Tracks.andThen {walk : Walk α} {parse : Parse α} {next : α → Walk β}
    {others : α → Parse β} {first : Nat} {unread : List Token}
    (hwalk : Tracks tokens first start (walk start) (parse unread))
    (hnext : ∀ a middle, start + first ≤ middle → middle < tokens.length →
      Tracks tokens 0 middle (next a middle) (others a (tokens.drop middle)))
    (hleast : least ≤ first) :
    Tracks tokens least start ((walk >>= next) start) (Parser.andThen parse others unread) := by
  rw [Parser.andThen]
  generalize parse unread = result at hwalk
  rcases hrun : walk start with ⟨outcome, middle, marks⟩
  rw [hrun] at hwalk
  cases hwalk.ends with
  | @ok a houtcome =>
      obtain rfl : outcome = .ok a := houtcome
      obtain ⟨hmoved, hmiddle⟩ : start + first ≤ middle ∧ middle < tokens.length :=
        hwalk.advances rfl
      exact .after hrun hwalk.inside (hnext a middle hmoved hmiddle) (by omega)
  | @error failure houtcome =>
      obtain rfl : outcome = .error (.ofFailure failure) := houtcome
      rw [bind_of_error hrun]
      exact tracks_error hwalk.inside hwalk.position_le failure

theorem Follows.andThen {walk : Walk α} {parse : Parse α} {next : α → Walk β}
    {others : α → Parse β} {first : Nat} (hwalk : Follows tokens first walk parse)
    (hnext : ∀ a, Follows tokens 0 (next a) (others a)) (hleast : least ≤ first) :
    Follows tokens least (walk >>= next) (Parser.andThen parse others) := fun start hstart =>
  (hwalk start hstart).andThen (fun a middle _ hmiddle => hnext a middle hmiddle) hleast

theorem Follows.weaken {walk : Walk α} {parse : Parse α} (hwalk : Follows tokens least walk parse) :
    Follows tokens 0 walk parse := by
  intro start hstart
  obtain ⟨hends, hinside, hposition, hadvances⟩ := hwalk start hstart
  refine ⟨hends, hinside, hposition, fun {a} houtcome => ?_⟩
  obtain ⟨hmoved, hstop⟩ := hadvances houtcome
  exact ⟨by omega, hstop⟩

/-- A routine that returns has moved on. -/
theorem Follows.call {body : Walk α} {parse : Parse α} (hbody : Follows tokens 1 body parse)
    (routine : Routine) : Follows tokens 1 (call routine body) parse := by
  intro start hstart
  have htracks := hbody start hstart
  generalize parse (tokens.drop start) = result at htracks
  rcases hrun : body start with ⟨outcome, stop, marks⟩
  rw [hrun] at htracks
  cases htracks.ends with
  | @ok a houtcome =>
      obtain rfl : outcome = .ok a := houtcome
      obtain ⟨hmoved, hstop⟩ := htracks.advances rfl
      simp only [Walk.call, hrun]
      refine ⟨.ok rfl, fun mark hmark => ?_, htracks.position_le, fun _ => ⟨hmoved, hstop⟩⟩
      rcases List.mem_append.mp hmark with hmark | hmark
      · exact htracks.inside mark hmark
      · obtain rfl := List.mem_singleton.mp hmark
        exact ⟨hmoved, hstop⟩
  | @error failure houtcome =>
      obtain rfl : outcome = .error (.ofFailure failure) := houtcome
      simp only [Walk.call, hrun]
      exact tracks_error htracks.inside htracks.position_le failure

/-! ## Single tokens -/

/-- What stands at a position among the tokens, and what a look from there finds. -/
structure Stands (tokens : List Token) (start : Nat) (token : Token) : Prop where
  drop : tokens.drop start = token :: tokens.drop (start + 1)
  look : Walk.look tokens start = ⟨.ok token, start, [.look start start]⟩
  succ_lt (hfinish : token.isFinish = false) : start + 1 < tokens.length

theorem EndsOnce.exists_stands (hend : EndsOnce tokens) (hstart : start < tokens.length) :
    ∃ token, Stands tokens start token := by
  have hindex : min start (tokens.length - 1) = start := by omega
  refine ⟨tokens[start], List.drop_eq_getElem_cons hstart, ?_, fun hfinish => ?_⟩
  · simp [Walk.look, hindex, hstart]
  · obtain ⟨before, finish, rfl, hlast, -⟩ := hend
    rw [List.length_append, List.length_singleton] at hstart ⊢
    have hposition : start ≠ before.length := by
      rintro rfl
      simp [hlast] at hfinish
    omega

theorem isInside_look (hstart : start < tokens.length) :
    ∀ mark ∈ [Mark.look start start], mark.IsInside tokens := by
  simpa [Mark.IsInside] using hstart

theorem Stands.take {token : Token} (hstands : Stands tokens start token) :
    Walk.take tokens start = ⟨.ok token, start + 1, [.look start start]⟩ := by
  rw [Walk.take, bind_of_ok hstands.look]
  rfl

theorem Stands.tracks_look {token : Token} (hstands : Stands tokens start token)
    (hstart : start < tokens.length) {next : Token → Walk α}
    {result : Except Failure (α × List Token)}
    (hnext : Tracks tokens least start (next token start) result) :
    Tracks tokens least start ((Walk.look tokens >>= next) start) result :=
  .after hstands.look (isInside_look hstart) hnext (Nat.le_refl _)

theorem Stands.tracks_take {token : Token} (hstands : Stands tokens start token)
    (hstart : start < tokens.length) {next : Token → Walk α}
    {result : Except Failure (α × List Token)}
    (hnext : Tracks tokens 0 (start + 1) (next token (start + 1)) result) (hleast : least ≤ 1) :
    Tracks tokens least start ((Walk.take tokens >>= next) start) result :=
  .after hstands.take (isInside_look hstart) hnext (by omega)

theorem isFinish_of_isSymbol {token : Token} {symbol : Token.Symbol}
    (hsymbol : token.isSymbol symbol = true) : token.isFinish = false := by
  unfold Token.isSymbol at hsymbol
  split at hsymbol
  · next hkind => exact isFinish_of_symbol hkind
  · cases hsymbol

/-- The parser goes on behind a symbol as the walk does. -/
theorem Stands.onFirst_only_eq {token : Token} (hstands : Stands tokens start token)
    (symbol : Token.Symbol) (taken other : Parse α) :
    Parser.onFirst (Parser.only symbol taken) other (tokens.drop start) =
      if token.isSymbol symbol then taken (tokens.drop (start + 1))
      else other (tokens.drop start) := by
  rcases token with ⟨kind, position, asWord⟩
  rw [hstands.drop]
  cases kind with
  | symbol s => by_cases hs : s = symbol <;> simp [Parser.onFirst, Parser.only, Token.isSymbol, hs]
  | _ => rfl

/-- A symbol that may come next, with one walk behind it and another one in its place. -/
theorem Tracks.accept {symbol : Token.Symbol} {next : Bool → Walk α} {taken other : Parse α}
    (hend : EndsOnce tokens) (hstart : start < tokens.length)
    (htaken : start + 1 < tokens.length → Tracks tokens 0 (start + 1)
      (next true (start + 1)) (taken (tokens.drop (start + 1))))
    (hother : Tracks tokens least start (next false start) (other (tokens.drop start)))
    (hleast : least ≤ 1) :
    Tracks tokens least start ((Walk.accept tokens symbol >>= next) start)
      (Parser.onFirst (Parser.only symbol taken) other (tokens.drop start)) := by
  obtain ⟨token, hstands⟩ := hend.exists_stands hstart
  rw [hstands.onFirst_only_eq]
  cases hsymbol : token.isSymbol symbol with
  | true =>
      have hbehind := hstands.succ_lt (isFinish_of_isSymbol hsymbol)
      have haccept : Walk.accept tokens symbol start =
          ⟨.ok true, start + 1, [.look start start]⟩ := by
        rw [Walk.accept, bind_of_ok hstands.look, if_pos hsymbol]
        rfl
      exact .after haccept (isInside_look hstart) (htaken hbehind) (by omega)
  | false =>
      have haccept : Walk.accept tokens symbol start =
          ⟨.ok false, start, [.look start start]⟩ := by
        rw [Walk.accept, bind_of_ok hstands.look, hsymbol]
        rfl
      exact .after haccept (isInside_look hstart) hother (Nat.le_refl _)

theorem Follows.accept {symbol : Token.Symbol} {next : Bool → Walk α} {taken other : Parse α}
    (hend : EndsOnce tokens) (htaken : Follows tokens 0 (next true) taken)
    (hother : Follows tokens least (next false) other) (hleast : least ≤ 1) :
    Follows tokens least (Walk.accept tokens symbol >>= next)
      (Parser.onFirst (Parser.only symbol taken) other) := fun start hstart =>
  .accept hend hstart (htaken (start + 1)) (hother start hstart) hleast

/-- A symbol that has to come next, with a walk behind it. -/
theorem Follows.expect {symbol : Token.Symbol} {what : SyntaxFault} {next : Unit → Walk α}
    {taken : Parse α} (hend : EndsOnce tokens) (htaken : Follows tokens 0 (next ()) taken)
    (hleast : least ≤ 1) :
    Follows tokens least (Walk.expect tokens symbol what >>= next)
      (Parser.require symbol what taken) := by
  intro start hstart
  obtain ⟨token, hstands⟩ := hend.exists_stands hstart
  rw [Parser.require, hstands.onFirst_only_eq]
  cases hsymbol : token.isSymbol symbol with
  | true =>
      have hbehind := hstands.succ_lt (isFinish_of_isSymbol hsymbol)
      have hexpect : Walk.expect tokens symbol what start =
          ⟨.ok (), start + 1, [.look start start, .look start start]⟩ := by
        rw [Walk.expect, bind_of_ok hstands.look, if_pos hsymbol, bind_of_ok hstands.take]
        rfl
      refine .after hexpect ?_ (htaken _ hbehind) (by omega)
      simpa [Mark.IsInside] using hstart
  | false =>
      have hexpect : Walk.expect tokens symbol what start =
          ⟨.error (.malformed what token), start, [.look start start, .look start start]⟩ := by
        rw [Walk.expect, bind_of_ok hstands.look, hsymbol]
        simp only [Bool.false_eq_true, if_false, bind_of_ok hstands.look]
        rfl
      rw [if_neg Bool.false_ne_true, Parser.fault, hstands.drop, bind_of_error hexpect]
      exact tracks_error (by simpa [Mark.IsInside] using hstart) (Nat.le_of_lt hstart)
        (.malformed ⟨what, token :: _⟩)

/-! ## Loops -/

theorem joining_eq_map (level : Level) (operand : Parse Expr) (left : Expr) (token : Token) :
    Parser.joining level operand left token.kind = (token.operator? level).map fun op =>
      Parser.andThen operand fun right => Parser.done (.binary op left right) := by
  rcases token with ⟨kind, position, asWord⟩
  cases kind <;> rfl

theorem isFinish_of_operator? {token : Token} {level : Level} {op : BinaryOperator}
    (hoperator : token.operator? level = some op) : token.isFinish = false := by
  unfold Token.operator? at hoperator
  split at hoperator
  · next hkind => exact isFinish_of_symbol hkind
  · cases hoperator

theorem andThen_done (parse : Parse α) (f : α → β) {γ : Type} (next : β → Parse γ) :
    Parser.andThen (Parser.andThen parse fun a => Parser.done (f a)) next =
      Parser.andThen parse fun a => next (f a) := by
  funext tokens
  simp only [Parser.andThen, Parser.done, bind_assoc]
  rfl

theorem only_map (symbol : Token.Symbol) (next : Parse α) (f : Parse α → Parse β)
    (kind : Token.Kind) :
    (Parser.only symbol next kind).map f = Parser.only symbol (f next) kind := by
  cases kind with
  | symbol s => by_cases hs : s = symbol <;> simp [Parser.only, hs]
  | _ => rfl

/-- A chain with as much fuel as there are tokens comes to its end. -/
theorem tracks_chain (hend : EndsOnce tokens) {level : Level} {operand : Walk Expr}
    {parse : Parse Expr} (hoperand : Follows tokens 1 operand parse) (fuel rounds : Nat)
    (left : Expr) (hstart : start < tokens.length) (hfuel : tokens.length ≤ start + fuel)
    (hrounds : tokens.length ≤ start + rounds) :
    Tracks tokens 0 start (chain tokens level operand fuel left start)
      (Parser.loop (Parser.joining level parse) rounds left (tokens.drop start)) := by
  -- A round moves on by two tokens at least, so what is left goes down faster than either fuel.
  induction fuel generalizing rounds left start with
  | zero => omega
  | succ fuel ih =>
      obtain ⟨rounds, rfl⟩ : ∃ n, rounds = n + 1 := ⟨rounds - 1, by omega⟩
      obtain ⟨token, hstands⟩ := hend.exists_stands hstart
      rw [chain]
      refine hstands.tracks_look hstart ?_
      rw [Parser.loop, hstands.drop]
      simp only [Parser.onFirst, joining_eq_map]
      cases hoperator : token.operator? level with
      | none =>
          rw [← hstands.drop]
          exact follows_done left start hstart
      | some op =>
          have hbehind := hstands.succ_lt (isFinish_of_operator? hoperator)
          refine hstands.tracks_take hstart ?_ (Nat.zero_le _)
          simp only [Option.map_some, andThen_done]
          refine (hoperand _ hbehind).andThen (fun right middle hmoved hmiddle => ?_)
            (Nat.zero_le _)
          exact ih rounds _ hmiddle (by omega) (by omega)

theorem follows_chain (hend : EndsOnce tokens) {level : Level} {operand : Walk Expr}
    {parse : Parse Expr} (hoperand : Follows tokens 1 operand parse) (left : Expr) :
    Follows tokens 0 (chain tokens level operand tokens.length left)
      (Parser.rounds (Parser.joining level parse) left) := fun start hstart =>
  tracks_chain hend hoperand _ _ left hstart (by omega) (by rw [List.length_drop]; omega)

theorem tracks_furtherArguments (hend : EndsOnce tokens) {argument : Walk Expr}
    {parse : Parse Expr} (hargument : Follows tokens 1 argument parse) (fuel rounds : Nat)
    (known : List Expr) (hstart : start < tokens.length) (hfuel : tokens.length ≤ start + fuel)
    (hrounds : tokens.length ≤ start + rounds) :
    Tracks tokens 0 start (furtherArguments tokens argument fuel known start)
      (Parser.loop (Parser.listing parse) rounds known (tokens.drop start)) := by
  induction fuel generalizing rounds known start with
  | zero => omega
  | succ fuel ih =>
      obtain ⟨rounds, rfl⟩ : ∃ n, rounds = n + 1 := ⟨rounds - 1, by omega⟩
      rw [furtherArguments, Parser.loop]
      simp only [Parser.listing, only_map, andThen_done]
      refine .accept hend hstart (fun hbehind => ?_) (follows_done known start hstart)
        (Nat.zero_le _)
      refine (hargument _ hbehind).andThen (fun next middle hmoved hmiddle => ?_)
        (Nat.zero_le _)
      exact ih rounds _ hmiddle (by omega) (by omega)

theorem follows_furtherArguments (hend : EndsOnce tokens) {argument : Walk Expr}
    {parse : Parse Expr} (hargument : Follows tokens 1 argument parse) (known : List Expr) :
    Follows tokens 0 (furtherArguments tokens argument tokens.length known)
      (Parser.rounds (Parser.listing parse) known) := fun start hstart =>
  tracks_furtherArguments hend hargument _ _ known hstart (by omega)
    (by rw [List.length_drop]; omega)

/-! ## Routines -/

/-- The routines, each with the one of the parser that it follows. -/
structure FollowsWithin (tokens : List Token) (budget : Nat) : Prop where
  expression : Follows tokens 1 (expression tokens budget) (Parser.expression budget)
  operators (levels : List Level) :
    Follows tokens 1 (operators tokens budget levels) (Parser.operators budget levels)
  unary : Follows tokens 1 (unary tokens budget) (Parser.unary budget)
  primary : Follows tokens 1 (primary tokens budget) (Parser.primary budget)
  arguments : Follows tokens 1 (arguments tokens budget) (Parser.arguments budget)

variable {budget : Nat}

theorem FollowsWithin.expression_succ (hfollows : FollowsWithin tokens budget)
    (hend : EndsOnce tokens) :
    Follows tokens 1 (Walk.expression tokens (budget + 1)) (Parser.expression (budget + 1)) := by
  rw [Parser.expression_succ_eq, Walk.expression]
  refine .call ?_ .expression
  refine (hfollows.operators levels).andThen (fun condition => ?_) (Nat.le_refl _)
  refine .accept hend ?_ (follows_done condition) (Nat.zero_le _)
  refine hfollows.expression.andThen (fun whenTrue => ?_) (Nat.zero_le _)
  refine .expect hend ?_ (Nat.zero_le _)
  exact hfollows.expression.andThen (fun whenFalse => follows_done _) (Nat.zero_le _)

theorem FollowsWithin.operators_succ (hfollows : FollowsWithin tokens budget)
    (hend : EndsOnce tokens) (levels : List Level) :
    Follows tokens 1 (Walk.operators tokens (budget + 1) levels)
      (Parser.operators (budget + 1) levels) := by
  cases levels with
  | nil => exact hfollows.unary.call _
  | cons level tighter =>
      rw [Parser.operators_succ_cons_eq]
      have hoperand := hfollows.operators tighter
      exact (hoperand.andThen (follows_chain hend hoperand) (Nat.le_refl _)).call _

theorem unary_succ_eq_onFirst (budget : Nat) :
    Parser.unary (budget + 1) =
      Parser.onFirst (Parser.only .not (Parser.andThen (Parser.unary budget) fun operand =>
        Parser.done (.unary .not operand)))
      (Parser.onFirst (Parser.only .minus (Parser.andThen (Parser.unary budget) fun operand =>
        Parser.done (.unary .negate operand)))
      (Parser.onFirst (Parser.only .plus (Parser.unary budget)) (Parser.primary budget))) := by
  rw [Parser.unary_succ_eq]
  funext tokens
  rcases tokens with - | ⟨⟨kind, position, asWord⟩, rest⟩
  · rfl
  · cases kind with
    | symbol s => cases s <;> rfl
    | _ => rfl

theorem FollowsWithin.unary_succ (hfollows : FollowsWithin tokens budget)
    (hend : EndsOnce tokens) :
    Follows tokens 1 (Walk.unary tokens (budget + 1)) (Parser.unary (budget + 1)) := by
  rw [unary_succ_eq_onFirst, Walk.unary]
  refine .call ?_ .unary
  have hsigned (op : UnaryOperator) : Follows tokens 0
      (do return Expr.unary op (← Walk.unary tokens budget))
      (Parser.andThen (Parser.unary budget) fun operand => Parser.done (Expr.unary op operand)) :=
    hfollows.unary.andThen (fun operand => follows_done _) (Nat.zero_le _)
  refine .accept hend (hsigned .not) ?_ (Nat.le_refl _)
  refine .accept hend (hsigned .negate) ?_ (Nat.le_refl _)
  exact .accept hend hfollows.unary.weaken hfollows.primary (Nat.le_refl _)

/-- A token to take, with a walk behind it that goes by the token. -/
theorem Stands.tracks_taken {token : Token} (hstands : Stands tokens start token)
    {next : Token → Walk α} {behind : Token.Kind → Option (Parse α)} {taken other : Parse α}
    (hbehind : behind token.kind = some taken) (hfinish : token.isFinish = false)
    (hnext : Follows tokens 0 (next token) taken) :
    Tracks tokens 1 start ((Walk.take tokens >>= next) start)
      (Parser.onFirst behind other (tokens.drop start)) := by
  have hsucc := hstands.succ_lt hfinish
  rw [hstands.drop, Parser.onFirst_of_some hbehind]
  exact hstands.tracks_take (by omega) (hnext _ hsucc) (Nat.le_refl _)

/-- A token behind which there is nothing to do: the walk has already taken it. -/
theorem Stands.tracks_refused {token : Token} (hstands : Stands tokens start token)
    (hstart : start < tokens.length) {next : Token → Walk α} {what : SyntaxFault}
    {behind : Token.Kind → Option (Parse α)} (hbehind : behind token.kind = none)
    (hnext : next token = halt (.malformed what token)) :
    Tracks tokens 1 start ((Walk.take tokens >>= next) start)
      (Parser.onFirst behind (Parser.fault what) (tokens.drop start)) := by
  have hdeclines : Parser.Declines behind (tokens.drop start) := by
    simpa [Parser.Declines, hstands.drop] using hbehind
  rw [Parser.onFirst_of_declines hdeclines, Parser.fault, hstands.drop]
  refine hstands.tracks_take hstart ?_ (Nat.le_refl _)
  rw [hnext]
  exact tracks_halt (.malformed ⟨what, token :: _⟩) hstart

theorem FollowsWithin.primary_succ (hfollows : FollowsWithin tokens budget)
    (hend : EndsOnce tokens) :
    Follows tokens 1 (Walk.primary tokens (budget + 1)) (Parser.primary (budget + 1)) := by
  rw [Parser.primary_succ_eq, Walk.primary]
  refine .call (fun start hstart => ?_) .primary
  obtain ⟨⟨kind, position, asWord⟩, hstands⟩ := hend.exists_stands hstart
  cases kind with
  | number value => exact hstands.tracks_taken rfl rfl (follows_done _)
  | boolean value => exact hstands.tracks_taken rfl rfl (follows_done _)
  | name text =>
      refine hstands.tracks_taken rfl rfl ?_
      refine .accept hend ?_ (follows_done _) (Nat.zero_le _)
      exact hfollows.arguments.andThen (fun trees => follows_done _) (Nat.zero_le _)
  | symbol s =>
      cases s with
      | openParen =>
          refine hstands.tracks_taken rfl rfl ?_
          refine hfollows.expression.andThen (fun inner => ?_) (Nat.zero_le _)
          exact .expect hend (follows_done _) (Nat.zero_le _)
      | _ => exact hstands.tracks_refused hstart rfl rfl
  | finish => exact hstands.tracks_refused hstart rfl rfl

theorem FollowsWithin.arguments_succ (hfollows : FollowsWithin tokens budget)
    (hend : EndsOnce tokens) :
    Follows tokens 1 (Walk.arguments tokens (budget + 1)) (Parser.arguments (budget + 1)) := by
  rw [Parser.arguments_succ_eq, Walk.arguments]
  refine .call ?_ .arguments
  refine .accept hend (follows_done _) ?_ (Nat.le_refl _)
  refine hfollows.expression.andThen (fun first => ?_) (Nat.le_refl _)
  refine (follows_furtherArguments hend hfollows.expression [first]).andThen (fun all => ?_)
    (Nat.le_refl _)
  exact .expect hend (follows_done _) (Nat.zero_le _)

theorem followsWithin_zero (tokens : List Token) : FollowsWithin tokens 0 := by
  have hdeep {α : Type} : Follows tokens 1 (halt .tooDeep : Walk α) fun _ => .error .tooDeep :=
    fun start hstart => tracks_halt .tooDeep (Nat.le_of_lt hstart)
  exact
    { expression := hdeep
      operators := fun _ => hdeep
      unary := hdeep
      primary := hdeep
      arguments := hdeep }

theorem followsWithin (hend : EndsOnce tokens) (budget : Nat) : FollowsWithin tokens budget := by
  induction budget with
  | zero => exact followsWithin_zero tokens
  | succ budget ih =>
      exact
        { expression := ih.expression_succ hend
          operators := ih.operators_succ hend
          unary := ih.unary_succ hend
          primary := ih.primary_succ hend
          arguments := ih.arguments_succ hend }

theorem Stands.onEnd_eq {token : Token} (hstands : Stands tokens start token)
    (atEnd inFront : Parse α) :
    Parser.onEnd atEnd inFront (tokens.drop start) =
      if token.isFinish then atEnd (tokens.drop start) else inFront (tokens.drop start) := by
  rw [hstands.drop, Parser.onEnd]

theorem tracks_parse (hend : EndsOnce tokens) (budget : Nat) :
    Tracks tokens 0 0 (parse tokens budget 0) (Parser.whole budget tokens) := by
  have hstart : 0 < tokens.length := by
    obtain ⟨before, finish, rfl, -⟩ := hend
    simp
  obtain ⟨first, hfirst⟩ := hend.exists_stands hstart
  refine hfirst.tracks_look hstart ?_
  change Tracks tokens 0 0 _ (Parser.whole budget (tokens.drop 0))
  rw [Parser.whole, hfirst.onEnd_eq]
  cases hfinish : first.isFinish with
  | true =>
      -- The walk looks once more, for the token that it reports.
      rw [Parser.fault, hfirst.drop]
      exact hfirst.tracks_look hstart
        (tracks_halt (.malformed ⟨.empty, first :: _⟩) (Nat.zero_le _))
  | false =>
      rw [if_neg Bool.false_ne_true, if_neg Bool.false_ne_true]
      have hexpression := (followsWithin hend budget).expression
      refine (hexpression 0 hstart).andThen (fun tree middle _ hmiddle => ?_) (Nat.zero_le _)
      obtain ⟨trailing, htrailing⟩ := hend.exists_stands hmiddle
      refine htrailing.tracks_look hmiddle ?_
      rw [htrailing.onEnd_eq]
      cases hfinish : trailing.isFinish with
      | true => exact follows_done tree middle hmiddle
      | false =>
          rw [Parser.fault, htrailing.drop]
          exact tracks_halt (.malformed ⟨.unexpected, trailing :: _⟩) (Nat.le_of_lt hmiddle)

theorem outcome_of_endsAs {run : Run α} {result : Except Failure (α × List Token)}
    (hends : EndsAs tokens run result) :
    run.outcome = (result.map Prod.fst).mapError Halt.ofFailure := by
  cases hends with
  | ok houtcome => exact houtcome
  | error houtcome => exact houtcome

theorem mapError_ofFailure_ne_endless (result : Except Failure α) :
    result.mapError Halt.ofFailure ≠ .error .endless := by
  rcases result with (_ | _) | a <;> rintro ⟨⟩

theorem mapError_ofFailure_ne_tooDeep {result : Except Failure α}
    (hresult : result ≠ .error .tooDeep) :
    result.mapError Halt.ofFailure ≠ .error .tooDeep := by
  rcases result with (e | _) | a
  · rintro ⟨⟩
  · exact absurd rfl hresult
  · rintro ⟨⟩

/-- Over tokens that end once, every routine that returns has taken at least one token and has left
the end token, so that every look is at a token of the list.  No loop runs out of rounds, and nine
units of a budget for each token, and nine more, are enough for the recursion.  However the walk
ends, it is at most one position behind the end token, and its outcome is that of the parser. -/
theorem parse_stays_among_tokens (budget : Nat) (hend : EndsOnce tokens) :
    (parse tokens budget 0).outcome
        = (Parser.parseWithin budget tokens).mapError Halt.ofFailure ∧
      (∀ routine start stop, .returned routine start stop ∈ (parse tokens budget 0).marks →
        start < stop ∧ stop < tokens.length) ∧
      (∀ position index, .look position index ∈ (parse tokens budget 0).marks →
        index = position ∧ position < tokens.length) ∧
      (parse tokens budget 0).outcome ≠ .error .endless ∧
      (9 * tokens.length + 9 ≤ budget → (parse tokens budget 0).outcome ≠ .error .tooDeep) ∧
      (parse tokens budget 0).position ≤ tokens.length := by
  have htracks := tracks_parse hend budget
  have houtcome := outcome_of_endsAs htracks.ends
  rw [← Parser.parseWithin_eq_map_whole] at houtcome
  refine ⟨houtcome, fun routine start stop hmark => htracks.inside _ hmark,
    fun position index hmark => htracks.inside _ hmark, ?_, fun hbudget => ?_,
    htracks.position_le⟩
  · rw [houtcome]
    exact mapError_ofFailure_ne_endless _
  · rw [houtcome]
    exact mapError_ofFailure_ne_tooDeep (Parser.parseWithin_ne_tooDeep hbudget)

/-- The tokens of `-x`. -/
def negated : List Token :=
  [⟨.symbol .minus, 0, false⟩, ⟨.name "x", 1, false⟩, Token.endAt 2]

theorem endsOnce_negated : EndsOnce negated :=
  ⟨negated.take 2, Token.endAt 2, rfl, rfl, by decide⟩

/-- Behind the sign the routine for signs is called once more, and takes the name. -/
theorem parse_stays_among_tokens_negated :
    EndsOnce negated ∧ .returned .unary 1 2 ∈ (parse negated 36 0).marks ∧ 1 < 2 ∧ 2 < 3 ∧
      (parse negated 36 0).outcome ≠ .error .tooDeep ∧ (parse negated 36 0).position ≤ 3 := by
  obtain ⟨-, hreturned, -, -, hdeep, hposition⟩ :=
    parse_stays_among_tokens 36 endsOnce_negated
  have hmark : .returned .unary 1 2 ∈ (parse negated 36 0).marks :=
    List.mem_of_getElem? (i := 9) rfl
  obtain ⟨hmoved, hstop⟩ := hreturned _ _ _ hmark
  exact ⟨endsOnce_negated, hmark, hmoved, hstop, hdeep (Nat.le_refl _), hposition⟩

end Walk

end Stylesheet
