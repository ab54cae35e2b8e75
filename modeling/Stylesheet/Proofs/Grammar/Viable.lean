import Stylesheet.Proofs.Grammar.Predictive
import Stylesheet.Proofs.Grammar.Recognition

/-!
# Faults at the earliest token

A fault is found as soon as the tokens read so far cannot be gone on with.  In front of the token at
fault they still can, since every part of the parser can complete what it has read.
-/

namespace Stylesheet

namespace Parser

variable {α : Type} {tokens rest : List Token} {stops : List Token → Prop}

/-! ## The parts of the parser -/

/-- The parts of the parser find faults at the earliest token within a nesting budget. -/
structure Predicts (budget : Nat) : Prop where
  expression : Predictive Phrase.expression.Stops (expression budget)
  operators {phrase : Phrase} : phrase.isChain = true →
    Predictive phrase.Stops (operators budget phrase.levels)
  unary : Predictive Phrase.unary.Stops (unary budget)
  primary : Predictive Phrase.primary.Stops (primary budget)
  arguments : Predictive (fun _ => True) (arguments budget)

theorem predictive_tooDeep : Predictive stops (fun _ => .error .tooDeep : Parse α) where
  again := nofun
  viable := nofun

theorem declines_only {phrase : Phrase} (hstops : phrase.Stops rest) {symbol : Token.Symbol}
    (hrank : symbol.rank ≤ phrase.rank) (next : Parse α) : Declines (only symbol next) rest := by
  intro token htoken
  rw [Option.eq_none_iff_forall_ne_some]
  intro found hfound
  obtain ⟨-, hkind⟩ := eq_of_only_eq_some hfound
  exact Nat.not_lt_of_le hrank (hstops token htoken symbol hkind)

theorem declines_joining {phrase : Phrase} (hstops : phrase.Stops rest) (operand : Parse Expr)
    (left : Expr) : Declines (joining phrase.level operand left) rest := by
  intro token htoken
  cases hkind : token.kind with
  | symbol s =>
      have hnone : phrase.level.lookup s = none := by
        rw [Option.eq_none_iff_forall_ne_some]
        intro op hlookup
        have hrank := Phrase.rank_of_joins (Phrase.lookup_level_eq_some_iff.mp hlookup)
        exact absurd (hstops token htoken s hkind) (by omega)
      simp [joining, hnone]
  | _ => rfl

variable {budget : Nat}

/-- What is read behind the question mark can be repeated behind the colon. -/
theorem Predicts.branches (hpredicts : Predicts budget) (condition : Expr) :
    Predictive Phrase.expression.Stops (branches (Parser.expression budget) condition) := by
  have hlook := (lookahead budget).expression
  refine .andThen_require hlook hpredicts.expression
    (fun _ => hlook.andThen fun _ => lookahead_done _)
    (fun _ => hpredicts.expression.andThen_done hlook _) ?_ ?_
  · rintro ⟨piece, hpiece⟩
    exact ⟨piece, fun _ => hpiece.andThen_done _⟩
  · intro token rest hcolon
    exact Phrase.stops_cons hcolon (by decide)

theorem Predicts.expression_succ (hpredicts : Predicts budget) :
    Predictive Phrase.expression.Stops (Parser.expression (budget + 1)) := by
  have hor : Predictive Phrase.or.Stops (Parser.operators budget levels) := hpredicts.operators rfl
  have hquiet (rest : List Token) (hstops : Phrase.expression.Stops rest) (condition : Expr) :
      Declines (only .question (Parser.branches (Parser.expression budget) condition)) rest :=
    declines_only hstops (by decide) _
  rw [expression_succ_eq]
  refine .andThen_optional ((lookahead budget).operators levels) hor (fun condition => ?_) ?_ ?_
  · exact .onFirst (forall_only (hpredicts.branches condition))
      (Or.inr (predictive_done _ condition))
      (Or.inr fun rest hstops => hquiet rest hstops condition) nofun
  · intro rest hstops
    exact hstops.of_rank_le (by decide)
  · intro rest hstops condition
    exact ⟨condition, onFirst_of_declines (hquiet rest hstops condition) _⟩

theorem Predicts.operators_succ (hpredicts : Predicts budget) {phrase : Phrase}
    (hphrase : phrase.isChain = true) :
    Predictive phrase.Stops (Parser.operators (budget + 1) phrase.levels) := by
  rcases Phrase.exists_operand?_or_eq_unary hphrase with ⟨tighter, htighter⟩ | rfl
  · have hlook := (lookahead budget).operators tighter.levels
    have hoperand := hpredicts.operators (Phrase.isChain_of_operand? htighter).2
    have hstay (rest : List Token) (hstops : phrase.Stops rest) : tighter.Stops rest :=
      hstops.of_rank_le (Nat.le_of_lt (Phrase.rank_of_operand? htighter))
    have hstep (left : Expr) (kind : Token.Kind) (next : Parse Expr)
        (hnext : joining phrase.level (Parser.operators budget tighter.levels) left kind =
          some next) : Predictive tighter.Stops next := by
      cases kind with
      | symbol s =>
          obtain ⟨op, -, rfl⟩ := Option.map_eq_some_iff.mp hnext
          exact hoperand.andThen_done hlook _
      | _ => cases hnext
    have hquiet (rest : List Token) (hstops : phrase.Stops rest) (left : Expr) :=
      declines_joining hstops (Parser.operators budget tighter.levels) left
    rw [Phrase.levels_eq_cons htighter, operators_succ_cons_eq]
    exact .andThen_optional hlook hoperand
      (predictive_rounds (hlook.joining phrase.level) hstep hstay hquiet) hstay
      fun rest hstops left => ⟨left, loop_of_declines (hquiet rest hstops left) _⟩
  · exact hpredicts.unary

theorem takesToken_primary (budget : Nat) : TakesToken (Parser.primary budget) := by
  intro tokens rest tree hok
  have hreads : Reads .primary (Parser.primary budget) := (sound budget).primary
  exact hreads.length_lt hok

/-- A literal can stand wherever a sign, a name or a parenthesis can. -/
theorem readable_literal {stops : List Token → Prop} (budget : Nat) :
    Readable stops (Parser.primary (budget + 1)) [⟨.boolean true, 0, false⟩] :=
  fun _ _ => ⟨.boolean true, rfl⟩

theorem Predicts.unary_succ (hpredicts : Predicts budget) :
    Predictive Phrase.unary.Stops (Parser.unary (budget + 1)) := by
  have hlook := lookahead budget
  rw [unary_succ_eq]
  refine .onFirst ?_ (Or.inr hpredicts.primary) (Or.inl (takesToken_primary budget)) ?_
  · intro kind next hnext
    unfold signed at hnext
    split at hnext
    · cases hnext
      exact hpredicts.unary.andThen_done hlook.unary _
    · cases hnext
      exact hpredicts.unary.andThen_done hlook.unary _
    · cases hnext
      exact hpredicts.unary
    · cases hnext
  · intro tokens what hfault
    cases budget with
    | zero => cases hfault
    | succ budget => exact ⟨[⟨.boolean true, 0, false⟩], readable_literal budget⟩

theorem Predicts.named (hpredicts : Predicts budget) (text : String) :
    Predictive Phrase.primary.Stops (named (Parser.arguments budget) text) := by
  have hcall : Predictive Phrase.primary.Stops
      (Parser.andThen (Parser.arguments budget) fun trees => done (Expr.call text trees)) :=
    .andThen_optional (lookahead budget).arguments hpredicts.arguments
      (fun _ => predictive_done _ _) (fun _ _ => trivial)
      fun _ _ trees => ⟨Expr.call text trees, rfl⟩
  exact .onFirst (forall_only hcall) (Or.inr (predictive_done _ _))
    (Or.inr fun rest hstops => declines_only hstops (by decide) _) nofun

theorem Predicts.group (hpredicts : Predicts budget) :
    Predictive Phrase.primary.Stops (group (Parser.expression budget)) :=
  .andThen_require (lookahead budget).expression hpredicts.expression (fun _ => lookahead_done _)
    (fun _ => predictive_done _ _) (fun _ => ⟨[], fun _ => readable_done _ _⟩)
    (fun _ _ hclosing => Phrase.stops_cons hclosing (by decide))

theorem Predicts.primary_succ (hpredicts : Predicts budget) :
    Predictive Phrase.primary.Stops (Parser.primary (budget + 1)) := by
  rw [primary_succ_eq]
  refine .onFirst ?_ (Or.inl ⟨_, rfl⟩) (Or.inl nofun) ?_
  · intro kind next hnext
    unfold started at hnext
    split at hnext
    · cases hnext
      exact predictive_done _ _
    · cases hnext
      exact predictive_done _ _
    · cases hnext
      exact hpredicts.named _
    · cases hnext
      exact hpredicts.group
    · cases hnext
  · intro _ _ _
    rw [← primary_succ_eq]
    exact ⟨[⟨.boolean true, 0, false⟩], readable_literal budget⟩

/-- Tokens that start with a closing parenthesis. -/
def AtClosing (tokens : List Token) : Prop :=
  ∃ token rest, tokens = token :: rest ∧ token.kind = .symbol .closeParen

/-- The arguments behind the first one, up to the parenthesis that closes them. -/
theorem Predicts.otherArguments (hpredicts : Predicts budget) (first : Expr) :
    Predictive (fun _ => True) (otherArguments (Parser.expression budget) first) := by
  have hlook := (lookahead budget).expression
  have hstep (known : List Expr) (kind : Token.Kind) (next : Parse (List Expr))
      (hnext : listing (Parser.expression budget) known kind = some next) :
      Predictive Phrase.expression.Stops next :=
    forall_only (hpredicts.expression.andThen_done hlook _) kind next hnext
  have hstay (rest : List Token) (hclosing : AtClosing rest) : Phrase.expression.Stops rest := by
    obtain ⟨token, tail, rfl, hkind⟩ := hclosing
    exact Phrase.stops_cons hkind (by decide)
  have hquiet (rest : List Token) (hclosing : AtClosing rest) (known : List Expr) :
      Declines (listing (Parser.expression budget) known) rest := by
    obtain ⟨token, tail, rfl, hkind⟩ := hclosing
    simp [Declines, listing, only, hkind]
  exact .andThen_require (hlook.listing.rounds [first])
    (predictive_rounds hlook.listing hstep hstay hquiet [first]) (fun _ => lookahead_done _)
    (fun _ => predictive_done _ _) (fun _ => ⟨[], fun _ => readable_done _ _⟩)
    (fun token rest hclosing => ⟨token, rest, rfl, hclosing⟩)

theorem Predicts.arguments_succ (hpredicts : Predicts budget) :
    Predictive (fun _ => True) (Parser.arguments (budget + 1)) := by
  have hlook := (lookahead budget).expression
  have hclose (first : Expr) :
      TakesToken (Parser.otherArguments (Parser.expression budget) first) :=
    .andThen (hlook.listing.rounds [first]) fun _ => takesToken_require (lookahead_done _)
  rw [arguments_succ_eq]
  refine .onFirst (forall_only (predictive_done _ _)) (Or.inr ?_)
    (Or.inl (.andThen hlook hclose)) ?_
  · refine .andThen hlook hpredicts.expression (fun _ => hpredicts.otherArguments)
      (Or.inl hclose) ?_
    intro _
    refine ⟨[⟨.symbol .closeParen, 0, false⟩], fun rest _ =>
      ⟨Phrase.stops_cons rfl (by decide), fun first => ⟨[first], rfl⟩⟩⟩
  · intro _ _ _
    exact ⟨[⟨.symbol .closeParen, 0, false⟩], fun rest _ => ⟨[], rfl⟩⟩

/-- The induction is on the budget. -/
theorem predicts (budget : Nat) : Predicts budget := by
  induction budget with
  | zero =>
      exact
        { expression := predictive_tooDeep
          operators := fun _ => predictive_tooDeep
          unary := predictive_tooDeep
          primary := predictive_tooDeep
          arguments := predictive_tooDeep }
  | succ budget ih =>
      exact
        { expression := ih.expression_succ
          operators := ih.operators_succ
          unary := ih.unary_succ
          primary := ih.primary_succ
          arguments := ih.arguments_succ }

/-! ## Whole lists of tokens -/

/-- What is readable as an expression is one, up to an end token. -/
theorem Readable.exists_derives {piece : List Token}
    (hpiece : Readable Phrase.expression.Stops (Parser.expression budget) piece) :
    ∃ tree, Derives .expression piece tree := by
  obtain ⟨tree, hok⟩ := hpiece [] nofun
  obtain ⟨used, hused, hderives⟩ := (sound budget).expression hok
  simp only [List.append_nil] at hused
  exact ⟨tree, hused ▸ hderives⟩

theorem Readable.parseWithin {piece : List Token}
    (hpiece : Readable Phrase.expression.Stops (Parser.expression budget) piece)
    (hend : AtEnd rest) : ∃ tree, parseWithin budget (piece ++ rest) = .ok tree := by
  obtain ⟨_, hderives⟩ := hpiece.exists_derives
  have hstops : Phrase.expression.Stops rest := by
    intro token htoken symbol hkind
    have hfinish := hend token htoken
    simp [Token.isFinish, hkind] at hfinish
  obtain ⟨tree, hok⟩ := hpiece rest hstops
  have hstart : ¬ AtEnd (piece ++ rest) := by
    obtain ⟨first, more, rfl, -⟩ := hderives.exists_cons
    intro hfinish
    have hnot := hderives.isFinish_eq_false first List.mem_cons_self
    simp [hfinish first rfl] at hnot
  refine ⟨tree, parseWithin_eq_ok_iff.mpr ⟨rest, ?_⟩⟩
  have hlast := onEnd_of_atEnd hend (done tree) (fault .unexpected)
  exact (onEnd_of_not_atEnd hstart _ _).trans
    (bind_eq_ok_iff.mpr ⟨(tree, rest), hok, hlast⟩)

/-- There is nothing to read, or what is read before a fault can be completed. -/
theorem exists_completion {unread : List Token} {what : SyntaxFault}
    (hparse : parseWithin budget tokens = .error (.malformed ⟨what, unread⟩)) :
    AtEnd tokens ∧ tokens = unread ∨
      ∃ before more, tokens = before ++ unread ∧
        Readable Phrase.expression.Stops (Parser.expression budget) (before ++ more) := by
  have hends := parseWithin_eq_malformed_iff.mp hparse
  by_cases hstart : AtEnd tokens
  · have hempty := hends.of_eq (onEnd_of_atEnd hstart _ _).symm
    cases hempty
    exact Or.inl ⟨hstart, rfl⟩
  · refine Or.inr ?_
    rcases ends_andThen_iff.mp (hends.of_eq (onEnd_of_not_atEnd hstart _ _).symm) with
      ⟨_, heq, hfault⟩ | ⟨tree, rest, hok, hlast⟩
    · cases heq
      exact (predicts budget).expression.viable hfault
    · by_cases hend : AtEnd rest
      · cases hlast.of_eq (onEnd_of_atEnd hend _ _).symm
      · cases hlast.of_eq (onEnd_of_not_atEnd hend _ _).symm
        obtain ⟨used, rfl, hused⟩ := (predicts budget).expression.again hok
        refine ⟨used, [], rfl, fun rest' hstops => ⟨tree, ?_⟩⟩
        simpa using hused rest' hstops

/-- Where there is nothing yet, a literal can come. -/
theorem exists_readable : ∃ piece,
    Readable Phrase.expression.Stops (Parser.expression nestingLimit) piece := by
  have hliteral : Parser.expression nestingLimit [⟨.boolean true, 0, false⟩] =
      .ok (.boolean true, []) := rfl
  exact (predicts nestingLimit).expression.exists_readable hliteral

/-- No phrase reaches over the end, so something is left that a fault is found at. -/
theorem unread_ne_nil {unread : List Token} {what : SyntaxFault} {last : Token}
    (hlast : tokens.getLast? = some last) (hfinish : last.isFinish = true)
    (hfault : parseWithin budget tokens = .error (.malformed ⟨what, unread⟩)) : unread ≠ [] := by
  rintro rfl
  rcases exists_completion hfault with ⟨-, rfl⟩ | ⟨before, more, rfl, hreadable⟩
  · cases hlast
  · obtain ⟨_, hderives⟩ := hreadable.exists_derives
    have hmem : last ∈ before := List.mem_of_getLast? (by simpa using hlast)
    have hnot := hderives.isFinish_eq_false last (List.mem_append_left more hmem)
    simp [hfinish] at hnot

/-- A token at fault is the first one that can be at fault.  The tokens in front of it start a list
that has a tree; with it behind them they start none, not even one that is read within another
budget. -/
theorem ofTokens_fault_earliest {tokens : List Token} {last : Token} {e : SyntaxError}
    (hlast : tokens.getLast? = some last) (hfinish : last.isFinish = true)
    (hfault : Expr.ofTokens tokens = .error (.malformed e)) :
    ∃ before rest, tokens = before ++ e.token :: rest ∧ e.unread = e.token :: rest ∧
      (∃ more tree, Expr.ofTokens (before ++ more ++ [last]) = .ok tree) ∧
      ∀ budget others tree, parseWithin budget (before ++ e.token :: others) ≠ .ok tree := by
  obtain ⟨what, unread⟩ := e
  have hend : AtEnd [last] := by simpa [AtEnd] using hfinish
  have hcompletion : ∃ before more, tokens = before ++ unread ∧
      Readable Phrase.expression.Stops (Parser.expression nestingLimit) (before ++ more) := by
    rcases exists_completion hfault with ⟨-, rfl⟩ | hcompletion
    · obtain ⟨piece, hpiece⟩ := exists_readable
      exact ⟨[], piece, rfl, hpiece⟩
    · exact hcompletion
  obtain ⟨before, more, rfl, hreadable⟩ := hcompletion
  obtain ⟨token, rest, rfl⟩ := List.exists_cons_of_ne_nil (unread_ne_nil hlast hfinish hfault)
  refine ⟨before, rest, rfl, rfl, ⟨more, hreadable.parseWithin hend⟩, ?_⟩
  intro budget others tree htree
  have hstill := parseWithin_eq_malformed_append hfault others
  have hok : UnlessTooDeep (parseWithin nestingLimit (before ++ token :: others)) (.ok tree) :=
    parseWithin_of_derives (derives_of_parseWithin htree) nestingLimit
  rw [hstill] at hok
  rcases hok with hok | hdeep
  · cases hok
  · cases hdeep

/-- The parenthesis of `f(a ? b)` stands where a colon or an operator could. -/
theorem ofTokens_fault_earliest_missing_colon :
    let token (kind : Token.Kind) (position : Nat) : Token := ⟨kind, position, false⟩
    let before := [token (.name "f") 0, token (.symbol .openParen) 1, token (.name "a") 2,
      token (.symbol .question) 4, token (.name "b") 6]
    let closing := token (.symbol .closeParen) 7
    let last := Token.endAt 8
    Expr.ofTokens (before ++ [closing, last]) =
        .error (.malformed ⟨.missingColon, [closing, last]⟩) ∧
      (∃ more tree, Expr.ofTokens (before ++ more ++ [last]) = .ok tree) ∧
      ∀ budget others tree, parseWithin budget (before ++ closing :: others) ≠ .ok tree := by
  intro token before closing last
  have hfault : Expr.ofTokens (before ++ [closing, last]) =
      .error (.malformed ⟨.missingColon, [closing, last]⟩) := rfl
  have hlast : (before ++ [closing, last]).getLast? = some last := rfl
  obtain ⟨front, rest, hfront, hrest, hcompletion, hnone⟩ :=
    ofTokens_fault_earliest hlast rfl hfault
  cases hrest
  obtain rfl := List.append_cancel_right hfront
  exact ⟨hfault, hcompletion, hnone⟩

end Parser

end Stylesheet
