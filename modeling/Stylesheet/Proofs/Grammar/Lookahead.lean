import Stylesheet.Proofs.Grammar.Parts

/-!
# One token of lookahead

Where a part of the parser ends, and how, depends on the kinds of the tokens up to the one that it
ends in front of, and on nothing else.
-/

namespace Stylesheet

namespace Parser

variable {α β σ : Type}

/-! ## Where parts end -/

/-- Where a parser ends, and whether it does so with a result or with a fault. -/
def Ends (parse : Parse α) (tokens : List Token) (outcome : Except SyntaxFault α)
    (unread : List Token) : Prop :=
  parse tokens = match outcome with
    | .ok a => .ok (a, unread)
    | .error what => .error (.malformed ⟨what, unread⟩)

/-- Tokens that differ at most in their places and spellings. -/
def SameKinds (tokens tokens' : List Token) : Prop :=
  tokens.map Token.kind = tokens'.map Token.kind

/-- Tokens of which the first ones, if there are any, differ at most in place and spelling. -/
def SameFront (tokens tokens' : List Token) : Prop :=
  tokens.head?.map Token.kind = tokens'.head?.map Token.kind

/-- A parser does not look beyond the token that it ends in front of. -/
structure LooksOneAhead (parse : Parse α) : Prop where
  repeats {tokens unread : List Token} {outcome : Except SyntaxFault α} :
    Ends parse tokens outcome unread → ∃ used, tokens = used ++ unread ∧
      ∀ {used' unread' : List Token}, SameKinds used used' → SameFront unread unread' →
        Ends parse (used' ++ unread') outcome unread'

variable {tokens tokens' unread unread' : List Token} {outcome : Except SyntaxFault α}

theorem Ends.of_eq {parse parse' : Parse α} (hends : Ends parse tokens outcome unread)
    (heq : parse' tokens' = parse tokens) : Ends parse' tokens' outcome unread :=
  heq.trans hends

theorem SameKinds.symm (hsame : SameKinds tokens tokens') : SameKinds tokens' tokens :=
  Eq.symm hsame

theorem SameKinds.sameFront (hsame : SameKinds tokens tokens') : SameFront tokens tokens' := by
  simpa [SameFront] using congrArg List.head? hsame

theorem SameKinds.sameFront_append (hsame : SameKinds tokens tokens')
    (hfront : SameFront unread unread') : SameFront (tokens ++ unread) (tokens' ++ unread') := by
  rcases tokens with - | ⟨token, tokens⟩
  · obtain rfl : tokens' = [] := by simpa [SameKinds] using hsame.symm
    exact hfront
  · obtain ⟨token', others, rfl, hkind, -⟩ := List.map_eq_cons_iff.mp hsame.symm
    simpa [SameFront] using hkind.symm

theorem Declines.of_sameFront {behind : Token.Kind → Option (Parse α)}
    (hdeclines : Declines behind tokens) (hfront : SameFront tokens tokens') :
    Declines behind tokens' := by
  intro token' htoken'
  rw [SameFront, htoken'] at hfront
  obtain ⟨token, htoken, hkind⟩ := Option.map_eq_some_iff.mp hfront
  rw [← hkind]
  exact hdeclines token htoken

theorem ends_andThen_iff {first : Parse α} {second : α → Parse β}
    {outcome : Except SyntaxFault β} :
    Ends (andThen first second) tokens outcome unread ↔
      (∃ what, outcome = .error what ∧ Ends first tokens (.error what) unread) ∨
        ∃ a rest, Ends first tokens (.ok a) rest ∧ Ends (second a) rest outcome unread := by
  unfold Ends andThen
  cases hfirst : first tokens with
  | ok found =>
      obtain ⟨a, rest⟩ := found
      constructor
      · intro hsecond
        exact Or.inr ⟨a, rest, rfl, hsecond⟩
      · rintro (⟨what, -, hfault⟩ | ⟨a', rest', hok, hsecond⟩)
        · cases hfault
        · cases hok
          exact hsecond
  | error failure =>
      cases outcome with
      | ok b => simp [bind, Except.bind]
      | error what => simp [bind, Except.bind]

theorem lookahead_done (a : α) : LooksOneAhead (done a) := by
  refine ⟨fun {tokens unread outcome} hends => ?_⟩
  cases outcome with
  | ok found =>
      cases hends
      refine ⟨[], rfl, fun {used' unread'} hused _ => ?_⟩
      obtain rfl : used' = [] := by simpa [SameKinds] using hused.symm
      rfl
  | error what => cases hends

theorem lookahead_fault (what : SyntaxFault) : LooksOneAhead (fault what : Parse α) := by
  refine ⟨fun {tokens unread outcome} hends => ?_⟩
  cases outcome with
  | ok found => cases hends
  | error what =>
      cases hends
      refine ⟨[], rfl, fun {used' unread'} hused _ => ?_⟩
      obtain rfl : used' = [] := by simpa [SameKinds] using hused.symm
      rfl

theorem LooksOneAhead.andThen {first : Parse α} {second : α → Parse β}
    (hfirst : LooksOneAhead first) (hsecond : ∀ a, LooksOneAhead (second a)) :
    LooksOneAhead (andThen first second) := by
  refine ⟨fun {tokens unread outcome} hends => ?_⟩
  rcases ends_andThen_iff.mp hends with ⟨what, rfl, hfault⟩ | ⟨a, rest, hok, hnext⟩
  · obtain ⟨used, rfl, hused⟩ := hfirst.repeats hfault
    exact ⟨used, rfl, fun hkinds hfront =>
      ends_andThen_iff.mpr (Or.inl ⟨what, rfl, hused hkinds hfront⟩)⟩
  · obtain ⟨used, rfl, hused⟩ := hfirst.repeats hok
    obtain ⟨more, rfl, hmore⟩ := (hsecond a).repeats hnext
    refine ⟨used ++ more, by simp, fun {used' unread'} hkinds hfront => ?_⟩
    rw [SameKinds, List.map_append] at hkinds
    obtain ⟨front, back, rfl, hfrontKinds, hbackKinds⟩ := List.map_eq_append_iff.mp hkinds.symm
    have hback : SameKinds more back := hbackKinds.symm
    rw [List.append_assoc]
    exact ends_andThen_iff.mpr (Or.inr ⟨a, back ++ unread',
      hused hfrontKinds.symm (hback.sameFront_append hfront), hmore hback hfront⟩)

theorem LooksOneAhead.onFirst {behind : Token.Kind → Option (Parse α)} {other : Parse α}
    (hbehind : ∀ kind next, behind kind = some next → LooksOneAhead next)
    (hother : LooksOneAhead other) : LooksOneAhead (onFirst behind other) := by
  refine ⟨fun {tokens unread outcome} hends => ?_⟩
  rcases onFirst_cases behind tokens with hdeclines | ⟨token, rest, next, rfl, hnext⟩
  · obtain ⟨used, rfl, hused⟩ :=
      hother.repeats (hends.of_eq (onFirst_of_declines hdeclines other).symm)
    refine ⟨used, rfl, fun hkinds hfront => ?_⟩
    have hdeclines' := hdeclines.of_sameFront (hkinds.sameFront_append hfront)
    exact (hused hkinds hfront).of_eq (onFirst_of_declines hdeclines' other)
  · obtain ⟨used, rfl, hused⟩ :=
      (hbehind _ _ hnext).repeats (hends.of_eq (onFirst_of_some hnext other rest).symm)
    refine ⟨token :: used, rfl, fun {used' unread'} hkinds hfront => ?_⟩
    obtain ⟨token', more, rfl, hkind, hmore⟩ := List.map_eq_cons_iff.mp hkinds.symm
    exact (hused hmore.symm hfront).of_eq (onFirst_of_some (hkind ▸ hnext) other _)

theorem LooksOneAhead.require {symbol : Token.Symbol} {what : SyntaxFault} {next : Parse α}
    (hnext : LooksOneAhead next) : LooksOneAhead (require symbol what next) :=
  .onFirst (forall_only hnext) (lookahead_fault what)

theorem LooksOneAhead.length_le {parse : Parse α} (hparse : LooksOneAhead parse)
    {rest : List Token} {a : α} (hok : parse tokens = .ok (a, rest)) :
    rest.length ≤ tokens.length := by
  obtain ⟨used, rfl, -⟩ := hparse.repeats (show Ends parse tokens (.ok a) rest from hok)
  simp

/-! ## Loops -/

/-- In each state, and behind each token, a step looks one token ahead. -/
def StepsLookOneAhead (step : σ → Token.Kind → Option (Parse σ)) : Prop :=
  ∀ state kind next, step state kind = some next → LooksOneAhead next

variable {step : σ → Token.Kind → Option (Parse σ)}

/-- The induction is on the fuel, with a choice and a sequence in each round. -/
theorem StepsLookOneAhead.loop (hstep : StepsLookOneAhead step) (fuel : Nat) (state : σ) :
    LooksOneAhead (loop step fuel state) := by
  induction fuel generalizing state with
  | zero => exact lookahead_done state
  | succ fuel ih =>
      refine .onFirst ?_ (lookahead_done state)
      intro kind next hnext
      obtain ⟨found, hfound, rfl⟩ := Option.map_eq_some_iff.mp hnext
      exact (hstep state kind found hfound).andThen ih

/-- Fuel beyond the number of tokens makes no difference to a loop. -/
theorem StepsLookOneAhead.loop_fuel_congr (hstep : StepsLookOneAhead step) {fuel fuel' : Nat}
    {tokens : List Token} (state : σ) (hfuel : tokens.length ≤ fuel)
    (hfuel' : tokens.length ≤ fuel') :
    Parser.loop step fuel state tokens = Parser.loop step fuel' state tokens := by
  induction fuel generalizing fuel' state tokens with
  | zero =>
      obtain rfl : tokens = [] := List.length_eq_zero_iff.mp (Nat.le_zero.mp hfuel)
      cases fuel' <;> rfl
  | succ fuel ih =>
      rcases tokens with - | ⟨token, rest⟩
      · cases fuel' <;> rfl
      · rcases fuel' with - | fuel'
        · cases hfuel'
        · rw [List.length_cons] at hfuel hfuel'
          simp only [Parser.loop, Parser.onFirst]
          cases hnext : step state token.kind with
          | none => rfl
          | some next =>
              simp only [Option.map_some, Parser.andThen]
              cases hfound : next rest with
              | error failure => rfl
              | ok found =>
                  have hlength := (hstep state token.kind next hnext).length_le hfound
                  exact ih found.1 (by omega) (by omega)

theorem StepsLookOneAhead.rounds_eq_loop (hstep : StepsLookOneAhead step) {fuel : Nat}
    {tokens : List Token} (state : σ) (hfuel : tokens.length ≤ fuel) :
    Parser.rounds step state tokens = Parser.loop step fuel state tokens :=
  hstep.loop_fuel_congr state (Nat.le_refl _) hfuel

/-- Fuel that is enough for two lists of tokens lets a loop go alike on both. -/
theorem StepsLookOneAhead.rounds (hstep : StepsLookOneAhead step) (state : σ) :
    LooksOneAhead (rounds step state) := by
  refine ⟨fun {tokens unread outcome} hends => ?_⟩
  obtain ⟨used, rfl, -⟩ := (hstep.loop tokens.length state).repeats hends
  refine ⟨used, rfl, fun {used' unread'} hkinds hfront => ?_⟩
  let fuel := max (used ++ unread).length (used' ++ unread').length
  have heq := hstep.rounds_eq_loop state (Nat.le_max_left _ _ : (used ++ unread).length ≤ fuel)
  have heq' := hstep.rounds_eq_loop state (Nat.le_max_right _ _ : (used' ++ unread').length ≤ fuel)
  obtain ⟨used₀, hused₀, hloop⟩ := (hstep.loop fuel state).repeats (hends.of_eq heq.symm)
  obtain rfl := List.append_cancel_right hused₀
  exact (hloop hkinds hfront).of_eq heq'

/-! ## The whole parser -/

theorem LooksOneAhead.branches {expression : Parse Expr} (hexpression : LooksOneAhead expression)
    (condition : Expr) : LooksOneAhead (branches expression condition) :=
  hexpression.andThen fun _ => (hexpression.andThen fun _ => lookahead_done _).require

theorem LooksOneAhead.joining {operand : Parse Expr} (hoperand : LooksOneAhead operand)
    (level : Level) : StepsLookOneAhead (joining level operand) := by
  intro left kind next hnext
  cases kind with
  | symbol s =>
      obtain ⟨op, -, rfl⟩ := Option.map_eq_some_iff.mp hnext
      exact hoperand.andThen fun _ => lookahead_done _
  | _ => cases hnext

theorem LooksOneAhead.listing {argument : Parse Expr} (hargument : LooksOneAhead argument) :
    StepsLookOneAhead (listing argument) :=
  fun _ => forall_only (hargument.andThen fun _ => lookahead_done _)

theorem LooksOneAhead.otherArguments {argument : Parse Expr} (hargument : LooksOneAhead argument)
    (first : Expr) : LooksOneAhead (otherArguments argument first) :=
  (hargument.listing.rounds [first]).andThen fun _ => (lookahead_done _).require

theorem LooksOneAhead.group {expression : Parse Expr} (hexpression : LooksOneAhead expression) :
    LooksOneAhead (group expression) :=
  hexpression.andThen fun _ => (lookahead_done _).require

theorem LooksOneAhead.signed {operand next : Parse Expr} (hoperand : LooksOneAhead operand)
    {kind : Token.Kind} (hnext : signed operand kind = some next) : LooksOneAhead next := by
  unfold Parser.signed at hnext
  split at hnext
  · cases hnext
    exact hoperand.andThen fun _ => lookahead_done _
  · cases hnext
    exact hoperand.andThen fun _ => lookahead_done _
  · cases hnext
    exact hoperand
  · cases hnext

theorem LooksOneAhead.named {arguments : Parse (List Expr)} (harguments : LooksOneAhead arguments)
    (text : String) : LooksOneAhead (named arguments text) :=
  .onFirst (forall_only (harguments.andThen fun _ => lookahead_done _)) (lookahead_done _)

theorem LooksOneAhead.started {expression next : Parse Expr} {arguments : Parse (List Expr)}
    (hexpression : LooksOneAhead expression) (harguments : LooksOneAhead arguments)
    {kind : Token.Kind} (hnext : started expression arguments kind = some next) :
    LooksOneAhead next := by
  unfold Parser.started at hnext
  split at hnext
  · cases hnext
    exact lookahead_done _
  · cases hnext
    exact lookahead_done _
  · cases hnext
    exact harguments.named _
  · cases hnext
    exact hexpression.group
  · cases hnext

/-- The parts of the parser look one token ahead within a nesting budget. -/
structure Lookahead (budget : Nat) : Prop where
  expression : LooksOneAhead (expression budget)
  operators (levels : List Level) : LooksOneAhead (operators budget levels)
  unary : LooksOneAhead (unary budget)
  primary : LooksOneAhead (primary budget)
  arguments : LooksOneAhead (arguments budget)

/-- A parser without a budget does not end in front of any token. -/
theorem lookahead_tooDeep : LooksOneAhead (fun _ => .error .tooDeep : Parse α) := by
  refine ⟨fun {tokens unread outcome} hends => ?_⟩
  cases outcome <;> cases hends

variable {budget : Nat}

theorem Lookahead.succ (hlook : Lookahead budget) : Lookahead (budget + 1) where
  expression := by
    rw [expression_succ_eq]
    exact (hlook.operators levels).andThen fun condition =>
      .onFirst (forall_only (hlook.expression.branches condition)) (lookahead_done _)
  operators := by
    rintro (- | ⟨level, tighter⟩)
    · exact hlook.unary
    · rw [operators_succ_cons_eq]
      exact (hlook.operators tighter).andThen ((hlook.operators tighter).joining level).rounds
  unary := by
    rw [unary_succ_eq]
    exact .onFirst (fun _ _ hnext => hlook.unary.signed hnext) hlook.primary
  primary := by
    rw [primary_succ_eq]
    exact .onFirst (fun _ _ hnext => hlook.expression.started hlook.arguments hnext)
      (lookahead_fault _)
  arguments := by
    rw [arguments_succ_eq]
    exact .onFirst (forall_only (lookahead_done []))
      (hlook.expression.andThen hlook.expression.otherArguments)

/-- The induction is on the budget. -/
theorem lookahead (budget : Nat) : Lookahead budget := by
  induction budget with
  | zero =>
      exact
        { expression := lookahead_tooDeep
          operators := fun _ => lookahead_tooDeep
          unary := lookahead_tooDeep
          primary := lookahead_tooDeep
          arguments := lookahead_tooDeep }
  | succ budget ih => exact ih.succ

/-! ## Whole lists of tokens -/

theorem isFinish_congr {token token' : Token} (hkind : token.kind = token'.kind) :
    token.isFinish = token'.isFinish := by
  rw [Token.isFinish, hkind, ← Token.isFinish]

theorem AtEnd.of_sameFront (hend : AtEnd tokens) (hfront : SameFront tokens tokens') :
    AtEnd tokens' := by
  intro token' htoken'
  rw [SameFront, htoken'] at hfront
  obtain ⟨token, htoken, hkind⟩ := Option.map_eq_some_iff.mp hfront
  rw [← isFinish_congr hkind]
  exact hend token htoken

theorem LooksOneAhead.onEnd {atEnd inFront : Parse α} (hatEnd : LooksOneAhead atEnd)
    (hinFront : LooksOneAhead inFront) : LooksOneAhead (onEnd atEnd inFront) := by
  refine ⟨fun {tokens unread outcome} hends => ?_⟩
  by_cases hend : AtEnd tokens
  · obtain ⟨used, rfl, hused⟩ := hatEnd.repeats (hends.of_eq (onEnd_of_atEnd hend _ inFront).symm)
    refine ⟨used, rfl, fun hkinds hfront => ?_⟩
    have hend' := hend.of_sameFront (hkinds.sameFront_append hfront)
    exact (hused hkinds hfront).of_eq (onEnd_of_atEnd hend' _ _)
  · obtain ⟨used, rfl, hused⟩ :=
      hinFront.repeats (hends.of_eq (onEnd_of_not_atEnd hend atEnd _).symm)
    refine ⟨used, rfl, fun {used' unread'} hkinds hfront => ?_⟩
    have hsame : SameFront (used' ++ unread') (used ++ unread) :=
      (hkinds.sameFront_append hfront).symm
    have hend' : ¬ AtEnd (used' ++ unread') := fun hend' => hend (hend'.of_sameFront hsame)
    exact (hused hkinds hfront).of_eq (onEnd_of_not_atEnd hend' _ _)

theorem lookahead_whole (budget : Nat) : LooksOneAhead (whole budget) :=
  (lookahead_fault _).onEnd ((lookahead budget).expression.andThen fun _ =>
    (lookahead_done _).onEnd (lookahead_fault _))

theorem parseWithin_eq_ok_iff {budget : Nat} {tree : Expr} :
    parseWithin budget tokens = .ok tree ↔
      ∃ unread, Ends (whole budget) tokens (.ok tree) unread := by
  rw [parseWithin_eq_map_whole]
  unfold Ends
  cases whole budget tokens <;> simp [Except.map, Prod.ext_iff]

theorem parseWithin_eq_malformed_iff {budget : Nat} {what : SyntaxFault} :
    parseWithin budget tokens = .error (.malformed ⟨what, unread⟩) ↔
      Ends (whole budget) tokens (.error what) unread := by
  rw [parseWithin_eq_map_whole]
  unfold Ends
  cases whole budget tokens <;> simp [Except.map]

/-- On tokens of the same kinds a parser ends at the same place. -/
theorem LooksOneAhead.of_sameKinds {parse : Parse α} (hparse : LooksOneAhead parse)
    (hsame : SameKinds tokens tokens') (hends : Ends parse tokens outcome unread) :
    ∃ index, unread = tokens.drop index ∧ Ends parse tokens' outcome (tokens'.drop index) := by
  obtain ⟨used, rfl, hused⟩ := hparse.repeats hends
  rw [SameKinds, List.map_append] at hsame
  obtain ⟨front, back, rfl, hfront, hback⟩ := List.map_eq_append_iff.mp hsame.symm
  have hlength : used.length = front.length := by simpa using congrArg List.length hfront.symm
  refine ⟨used.length, by simp, ?_⟩
  rw [hlength, List.drop_left]
  exact hused hfront.symm (SameKinds.sameFront hback.symm)

/-- Tokens of the same kinds give the same tree. -/
theorem SameKinds.parseWithin_eq_ok (hsame : SameKinds tokens tokens') {budget : Nat} {tree : Expr}
    (hparse : parseWithin budget tokens = .ok tree) : parseWithin budget tokens' = .ok tree := by
  obtain ⟨unread, hends⟩ := parseWithin_eq_ok_iff.mp hparse
  obtain ⟨index, -, hends'⟩ := (lookahead_whole budget).of_sameKinds hsame hends
  exact parseWithin_eq_ok_iff.mpr ⟨_, hends'⟩

/-- Tokens of the same kinds have the same fault at the same place. -/
theorem SameKinds.parseWithin_eq_malformed (hsame : SameKinds tokens tokens') {budget : Nat}
    {what : SyntaxFault} (hparse : parseWithin budget tokens = .error (.malformed ⟨what, unread⟩)) :
    ∃ index, unread = tokens.drop index ∧
      parseWithin budget tokens' = .error (.malformed ⟨what, tokens'.drop index⟩) := by
  obtain ⟨index, hindex, hends'⟩ :=
    (lookahead_whole budget).of_sameKinds hsame (parseWithin_eq_malformed_iff.mp hparse)
  exact ⟨index, hindex, parseWithin_eq_malformed_iff.mpr hends'⟩

/-- Tokens of the same kinds use up the same budget. -/
theorem SameKinds.parseWithin_eq_tooDeep (hsame : SameKinds tokens tokens') {budget : Nat}
    (hparse : parseWithin budget tokens = .error .tooDeep) :
    parseWithin budget tokens' = .error .tooDeep := by
  cases hparse' : parseWithin budget tokens' with
  | ok tree =>
      have hback := hsame.symm.parseWithin_eq_ok hparse'
      rw [hparse] at hback
      cases hback
  | error failure =>
      cases failure with
      | tooDeep => rfl
      | malformed e =>
          obtain ⟨index, -, hback⟩ := hsame.symm.parseWithin_eq_malformed hparse'
          rw [hparse] at hback
          cases hback

/-- Tokens of the same kinds derive the same tree. -/
theorem SameKinds.derives (hsame : SameKinds tokens tokens') {tree : Expr}
    (hderives : Derives .expression tokens tree) : Derives .expression tokens' tree := by
  have hbefore : beforeFinish tokens' = tokens' := by
    refine beforeFinish_eq_self fun token' htoken' => ?_
    obtain ⟨token, htoken, hkind⟩ : ∃ token ∈ tokens, token.kind = token'.kind := by
      rw [← List.mem_map, hsame]
      exact List.mem_map_of_mem htoken'
    rw [← isFinish_congr hkind]
    exact hderives.isFinish_eq_false token htoken
  have hparse := hsame.parseWithin_eq_ok (parseWithin_eq_ok_of_derives hderives (Nat.le_refl _))
  exact hbefore ▸ derives_of_parseWithin hparse

/-- The token at fault stays so whatever is behind it. -/
theorem parseWithin_eq_malformed_append {budget : Nat} {what : SyntaxFault} {used rest : List Token}
    {token : Token}
    (hparse : parseWithin budget (used ++ token :: rest) =
      .error (.malformed ⟨what, token :: rest⟩)) (rest' : List Token) :
    parseWithin budget (used ++ token :: rest') = .error (.malformed ⟨what, token :: rest'⟩) := by
  obtain ⟨used', hused', hends⟩ := (lookahead_whole budget).repeats
    (parseWithin_eq_malformed_iff.mp hparse)
  obtain rfl := List.append_cancel_right hused'
  exact parseWithin_eq_malformed_iff.mpr (hends rfl rfl)

end Parser

end Stylesheet
