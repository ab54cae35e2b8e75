import Stylesheet.Proofs.Grammar.Lookahead

/-!
# Completing what is read

When a part of the parser finds a fault, there are tokens that it would have taken instead, behind
those that it has taken, and within the same budget.  A sequence is completed by completing the part
that found the fault and then everything behind it.
-/

namespace Stylesheet

namespace Parser

variable {α β σ : Type} {tokens rest : List Token}

/-- Tokens that a parser takes, all of them and no more, in front of those that let it stop. -/
def Readable (stops : List Token → Prop) (parse : Parse α) (piece : List Token) : Prop :=
  ∀ rest, stops rest → ∃ a, parse (piece ++ rest) = .ok (a, rest)

/-- A parser that takes the same tokens again whatever lets it stop behind them, and that finds a
fault only behind tokens that it would take if they went on in some other way. -/
structure Predictive (stops : List Token → Prop) (parse : Parse α) : Prop where
  again {tokens rest : List Token} {a : α} : parse tokens = .ok (a, rest) →
    ∃ used, tokens = used ++ rest ∧ ∀ rest', stops rest' → parse (used ++ rest') = .ok (a, rest')
  viable {tokens unread : List Token} {what : SyntaxFault} :
    parse tokens = .error (.malformed ⟨what, unread⟩) →
    ∃ before more, tokens = before ++ unread ∧ Readable stops parse (before ++ more)

/-- A parser that takes at least one token. -/
def TakesToken (parse : Parse α) : Prop :=
  ∀ tokens rest a, parse tokens = .ok (a, rest) → rest.length < tokens.length

variable {stops pauses : List Token → Prop}

theorem Predictive.exists_readable {parse : Parse α} (hparse : Predictive stops parse) {a : α}
    (hok : parse tokens = .ok (a, rest)) : ∃ piece, Readable stops parse piece := by
  obtain ⟨used, -, hused⟩ := hparse.again hok
  exact ⟨used, fun rest' hstops => ⟨a, hused rest' hstops⟩⟩

theorem predictive_done (stops : List Token → Prop) (a : α) : Predictive stops (done a) where
  again hok := by
    cases hok
    exact ⟨[], rfl, fun _ _ => rfl⟩
  viable hfault := by
    cases hfault

theorem LooksOneAhead.eq_ok_append {parse : Parse α} (hparse : LooksOneAhead parse)
    {used rest : List Token} {token : Token} {a : α}
    (hok : parse (used ++ token :: rest) = .ok (a, token :: rest)) (rest' : List Token) :
    parse (used ++ token :: rest') = .ok (a, token :: rest') := by
  have hends : Ends parse (used ++ token :: rest) (.ok a) (token :: rest) := hok
  obtain ⟨used', hused', hrepeats⟩ := hparse.repeats hends
  obtain rfl := List.append_cancel_right hused'
  exact hrepeats rfl rfl

/-- What a sequence of parsers has read can be completed, by completing what the second one has
read or else by `more`, which takes the second one from its start to its end. -/
theorem Predictive.andThen {first : Parse α} {second : α → Parse β}
    (hlook : LooksOneAhead first) (hfirst : Predictive pauses first)
    (hsecond : (∃ piece, Readable pauses first piece) → ∀ a, Predictive stops (second a))
    (hstay : (∀ a, TakesToken (second a)) ∨ ∀ rest, stops rest → pauses rest)
    (hfinish : (∃ piece, Readable pauses first piece) → ∃ more, ∀ rest, stops rest →
      pauses (more ++ rest) ∧ ∀ a, ∃ b, second a (more ++ rest) = .ok (b, rest)) :
    Predictive stops (andThen first second) where
  again {tokens rest b} hok := by
    obtain ⟨⟨a, middle⟩, hok, hnext⟩ := bind_eq_ok_iff.mp hok
    obtain ⟨used, rfl, hused⟩ := hfirst.again hok
    obtain ⟨more, rfl, hmore⟩ := (hsecond (hfirst.exists_readable hok) a).again hnext
    refine ⟨used ++ more, by simp, fun rest' hstops => ?_⟩
    have hagain : first (used ++ (more ++ rest')) = .ok (a, more ++ rest') := by
      rcases more with - | ⟨token, more⟩
      · rcases hstay with htakes | hstay
        · exact absurd (htakes a rest rest b hnext) (Nat.lt_irrefl _)
        · exact hused rest' (hstay rest' hstops)
      · exact hlook.eq_ok_append hok _
    rw [List.append_assoc]
    exact bind_eq_ok_iff.mpr ⟨(a, more ++ rest'), hagain, hmore rest' hstops⟩
  viable {tokens unread what} hfault := by
    have hends : Ends (Parser.andThen first second) tokens (.error what) unread := hfault
    rcases ends_andThen_iff.mp hends with ⟨_, heq, hfirstFault⟩ | ⟨a, middle, hok, hsecondFault⟩
    · cases heq
      obtain ⟨before, more, rfl, hreadable⟩ := hfirst.viable hfirstFault
      obtain ⟨last, hlast⟩ := hfinish ⟨_, hreadable⟩
      refine ⟨before, more ++ last, rfl, fun rest' hstops => ?_⟩
      obtain ⟨hpauses, hsecond⟩ := hlast rest' hstops
      obtain ⟨a, hok⟩ := hreadable _ hpauses
      obtain ⟨b, hb⟩ := hsecond a
      refine ⟨b, bind_eq_ok_iff.mpr ⟨(a, last ++ rest'), ?_, hb⟩⟩
      simpa using hok
    · have hpiece := hfirst.exists_readable hok
      obtain ⟨used, rfl, hused⟩ := hfirst.again hok
      obtain ⟨before, more, rfl, hreadable⟩ := (hsecond hpiece a).viable hsecondFault
      rcases before with - | ⟨token, before⟩
      · obtain ⟨last, hlast⟩ := hfinish hpiece
        refine ⟨used, last, rfl, fun rest' hstops => ?_⟩
        obtain ⟨hpauses, hsecond⟩ := hlast rest' hstops
        obtain ⟨b, hb⟩ := hsecond a
        refine ⟨b, bind_eq_ok_iff.mpr ⟨(a, last ++ rest'), ?_, hb⟩⟩
        simpa using hused _ hpauses
      · refine ⟨used ++ token :: before, more, by simp, fun rest' hstops => ?_⟩
        obtain ⟨b, hb⟩ := hreadable rest' hstops
        have hagain := hlook.eq_ok_append hok (before ++ (more ++ rest'))
        refine ⟨b, bind_eq_ok_iff.mpr ⟨(a, token :: (before ++ (more ++ rest'))), ?_, ?_⟩⟩
        · simpa using hagain
        · simpa using hb

/-- A second parser that may also take nothing needs nothing to complete what the first has read. -/
theorem Predictive.andThen_optional {first : Parse α} {second : α → Parse β}
    (hlook : LooksOneAhead first) (hfirst : Predictive pauses first)
    (hsecond : ∀ a, Predictive stops (second a)) (hstay : ∀ rest, stops rest → pauses rest)
    (hnothing : ∀ rest, stops rest → ∀ a, ∃ b, second a rest = .ok (b, rest)) :
    Predictive stops (Parser.andThen first second) := by
  refine .andThen hlook hfirst (fun _ => hsecond) (Or.inr hstay) ?_
  intro _
  exact ⟨[], fun rest hstops => ⟨hstay rest hstops, hnothing rest hstops⟩⟩

/-- What a choice has read can be completed if that is so where nothing is read yet. -/
theorem Predictive.onFirst {behind : Token.Kind → Option (Parse α)} {other : Parse α}
    (hbehind : ∀ kind next, behind kind = some next → Predictive stops next)
    (hother : (∃ what, other = fault what) ∨ Predictive stops other)
    (hquiet : TakesToken other ∨ ∀ rest, stops rest → Declines behind rest)
    (hfinish : ∀ tokens what, other tokens = .error (.malformed ⟨what, tokens⟩) →
      ∃ more, Readable stops (onFirst behind other) more) :
    Predictive stops (onFirst behind other) where
  again {tokens rest a} hok := by
    rcases onFirst_cases behind tokens with hdeclines | ⟨token, tail, next, rfl, hnext⟩
    · rw [onFirst_of_declines hdeclines] at hok
      rcases hother with ⟨what, rfl⟩ | hother
      · cases hok
      · obtain ⟨used, rfl, hused⟩ := hother.again hok
        refine ⟨used, rfl, fun rest' hstops => ?_⟩
        have hdeclines' : Declines behind (used ++ rest') := by
          rcases used with - | ⟨token, used⟩
          · rcases hquiet with htakes | hquiet
            · exact absurd (htakes rest rest a hok) (Nat.lt_irrefl _)
            · exact hquiet rest' hstops
          · exact hdeclines.of_sameFront rfl
        rw [onFirst_of_declines hdeclines']
        exact hused rest' hstops
    · rw [onFirst_of_some hnext] at hok
      obtain ⟨used, rfl, hused⟩ := (hbehind _ next hnext).again hok
      refine ⟨token :: used, rfl, fun rest' hstops => ?_⟩
      rw [List.cons_append, onFirst_of_some hnext]
      exact hused rest' hstops
  viable {tokens unread what} hfault := by
    rcases onFirst_cases behind tokens with hdeclines | ⟨token, tail, next, rfl, hnext⟩
    · rw [onFirst_of_declines hdeclines] at hfault
      have hstart (hnone : tokens = unread) :
          ∃ more, Readable stops (Parser.onFirst behind other) more :=
        hfinish tokens what (by rw [hfault, hnone])
      rcases hother with ⟨_, rfl⟩ | hother
      · cases hfault
        obtain ⟨more, hmore⟩ := hstart rfl
        exact ⟨[], more, rfl, hmore⟩
      · obtain ⟨before, more, rfl, hreadable⟩ := hother.viable hfault
        rcases before with - | ⟨token, before⟩
        · obtain ⟨more, hmore⟩ := hstart rfl
          exact ⟨[], more, rfl, hmore⟩
        · refine ⟨token :: before, more, rfl, fun rest' hstops => ?_⟩
          have hdeclines' : Declines behind (token :: before ++ more ++ rest') :=
            hdeclines.of_sameFront rfl
          rw [onFirst_of_declines hdeclines']
          exact hreadable rest' hstops
    · rw [onFirst_of_some hnext] at hfault
      obtain ⟨before, more, rfl, hreadable⟩ := (hbehind _ next hnext).viable hfault
      refine ⟨token :: before, more, rfl, fun rest' hstops => ?_⟩
      rw [List.cons_append, List.cons_append, onFirst_of_some hnext]
      exact hreadable rest' hstops

/-- A symbol that has to stand somewhere completes what lacks it. -/
theorem Predictive.require {symbol : Token.Symbol} {what : SyntaxFault} {next : Parse α}
    (hnext : Predictive stops next) {piece : List Token} (hpiece : Readable stops next piece) :
    Predictive stops (require symbol what next) := by
  refine .onFirst (forall_only hnext) (Or.inl ⟨what, rfl⟩) (Or.inl nofun) ?_
  intro _ _ _
  refine ⟨⟨.symbol symbol, 0, false⟩ :: piece, fun rest hstops => ?_⟩
  have hnext : only symbol next (.symbol symbol) = some next := if_pos rfl
  rw [List.cons_append, onFirst_of_some hnext]
  exact hpiece rest hstops

/-! ## Loops -/

section Loops

variable {step : σ → Token.Kind → Option (Parse σ)}

theorem loop_of_declines {state : σ} (hdeclines : Declines (step state) rest) (fuel : Nat) :
    loop step fuel state rest = .ok (state, rest) := by
  cases fuel with
  | zero => rfl
  | succ fuel =>
      refine onFirst_of_declines (fun token htoken => ?_) (done state)
      simp [hdeclines token htoken]

/-- A loop that has come to where it stops does so with more fuel. -/
theorem loop_more_fuel (hquiet : ∀ state, Declines (step state) rest) {fuel fuel' : Nat}
    (hfuel : fuel ≤ fuel') {state last : σ} {tokens : List Token}
    (hok : loop step fuel state tokens = .ok (last, rest)) :
    loop step fuel' state tokens = .ok (last, rest) := by
  induction fuel generalizing fuel' state tokens with
  | zero =>
      cases hok
      exact loop_of_declines (hquiet last) fuel'
  | succ fuel ih =>
      rcases fuel' with - | fuel'
      · cases hfuel
      · rcases tokens with - | ⟨token, tail⟩
        · exact hok
        · simp only [loop, Parser.onFirst] at hok ⊢
          cases hnext : step state token.kind with
          | none =>
              rw [hnext] at hok
              exact hok
          | some next =>
              rw [hnext] at hok
              obtain ⟨⟨middle, behind⟩, hfound, hmore⟩ := bind_eq_ok_iff.mp hok
              exact bind_eq_ok_iff.mpr
                ⟨(middle, behind), hfound, ih (Nat.le_of_succ_le_succ hfuel) hmore⟩

/-- The fuel of a loop does not matter where it comes to a stop. -/
theorem rounds_of_loop (hlook : StepsLookOneAhead step)
    (hquiet : ∀ state, Declines (step state) rest) {fuel : Nat} {state last : σ}
    (hok : loop step fuel state tokens = .ok (last, rest)) :
    rounds step state tokens = .ok (last, rest) := by
  rw [hlook.rounds_eq_loop state (Nat.le_max_left tokens.length fuel)]
  exact loop_more_fuel hquiet (Nat.le_max_right _ _) hok

variable (hlook : StepsLookOneAhead step)
  (hstep : ∀ state kind next, step state kind = some next → Predictive pauses next)
  (hstay : ∀ rest, stops rest → pauses rest)
  (hquiet : ∀ rest, stops rest → ∀ state, Declines (step state) rest)

include hlook hstep hstay hquiet

/-- The induction is on the fuel; the rest of the loop is behind each of its steps. -/
theorem predictive_loop (fuel : Nat) (state : σ) : Predictive stops (loop step fuel state) := by
  induction fuel generalizing state with
  | zero => exact predictive_done stops state
  | succ fuel ih =>
      refine .onFirst ?_ (Or.inr (predictive_done stops state)) (Or.inr ?_) nofun
      · intro kind next hnext
        obtain ⟨found, hfound, rfl⟩ := Option.map_eq_some_iff.mp hnext
        exact .andThen_optional (hlook state kind found hfound) (hstep state kind found hfound) ih
          hstay fun rest hstops last => ⟨last, loop_of_declines (hquiet rest hstops last) fuel⟩
      · intro rest hstops token htoken
        simp [hquiet rest hstops state token htoken]

theorem predictive_rounds (state : σ) : Predictive stops (rounds step state) where
  again {tokens rest last} hok := by
    obtain ⟨used, rfl, hused⟩ :=
      (predictive_loop hlook hstep hstay hquiet tokens.length state).again hok
    exact ⟨used, rfl, fun rest' hstops =>
      rounds_of_loop hlook (hquiet rest' hstops) (hused rest' hstops)⟩
  viable {tokens unread what} hfault := by
    obtain ⟨before, more, hbefore, hreadable⟩ :=
      (predictive_loop hlook hstep hstay hquiet tokens.length state).viable hfault
    refine ⟨before, more, hbefore, fun rest' hstops => ?_⟩
    obtain ⟨last, hlast⟩ := hreadable rest' hstops
    exact ⟨last, rounds_of_loop hlook (hquiet rest' hstops) hlast⟩

end Loops

/-! ## Sequences with a known end -/

theorem readable_done (stops : List Token → Prop) (a : α) : Readable stops (done a) [] :=
  fun _ _ => ⟨a, rfl⟩

theorem Readable.andThen_done {parse : Parse α} {piece : List Token}
    (hpiece : Readable stops parse piece) (f : α → β) :
    Readable stops (andThen parse fun a => done (f a)) piece := by
  intro rest hstops
  obtain ⟨a, hok⟩ := hpiece rest hstops
  exact ⟨f a, bind_eq_ok_iff.mpr ⟨(a, rest), hok, rfl⟩⟩

theorem Predictive.andThen_done {parse : Parse α} (hlook : LooksOneAhead parse)
    (hparse : Predictive stops parse) (f : α → β) :
    Predictive stops (Parser.andThen parse fun a => done (f a)) :=
  .andThen_optional hlook hparse (fun a => predictive_done stops (f a)) (fun _ hstops => hstops)
    fun _ _ a => ⟨f a, rfl⟩

theorem takesToken_require {symbol : Token.Symbol} {what : SyntaxFault} {next : Parse α}
    (hnext : LooksOneAhead next) : TakesToken (require symbol what next) := by
  intro tokens rest a hok
  rw [require_eq] at hok
  obtain ⟨behind, hexpect, hfound⟩ := bind_eq_ok_iff.mp hok
  obtain ⟨token, rfl, -⟩ := expect_eq_ok_iff.mp hexpect
  exact Nat.lt_succ_of_le (hnext.length_le hfound)

theorem TakesToken.andThen {first : Parse α} {second : α → Parse β} (hfirst : LooksOneAhead first)
    (hsecond : ∀ a, TakesToken (second a)) : TakesToken (andThen first second) := by
  intro tokens rest b hok
  obtain ⟨⟨a, middle⟩, hok, hnext⟩ := bind_eq_ok_iff.mp hok
  exact Nat.lt_of_lt_of_le (hsecond a middle rest b hnext) (hfirst.length_le hok)

/-- A part in front of a symbol can be completed by the symbol and what is behind it. -/
theorem Predictive.andThen_require {symbol : Token.Symbol} {what : SyntaxFault} {first : Parse α}
    {next : α → Parse β} (hlook : LooksOneAhead first) (hfirst : Predictive pauses first)
    (hnextLook : ∀ a, LooksOneAhead (next a)) (hnext : ∀ a, Predictive stops (next a))
    (hpiece : (∃ piece, Readable pauses first piece) →
      ∃ piece, ∀ a, Readable stops (next a) piece)
    (hclosing : ∀ token rest, token.kind = .symbol symbol → pauses (token :: rest)) :
    Predictive stops (Parser.andThen first fun a => Parser.require symbol what (next a)) := by
  refine .andThen hlook hfirst ?_ (Or.inl fun a => takesToken_require (hnextLook a)) ?_
  · intro hfirst a
    obtain ⟨piece, hreadable⟩ := hpiece hfirst
    exact (hnext a).require (hreadable a)
  · intro hfirst
    obtain ⟨piece, hreadable⟩ := hpiece hfirst
    refine ⟨⟨.symbol symbol, 0, false⟩ :: piece, fun rest hstops =>
      ⟨hclosing _ _ rfl, fun a => ?_⟩⟩
    obtain ⟨b, hok⟩ := hreadable a rest hstops
    exact ⟨b, by rw [List.cons_append, require_eq, expect_eq_ok_iff.mpr ⟨_, rfl, rfl⟩]; exact hok⟩

end Parser

end Stylesheet
