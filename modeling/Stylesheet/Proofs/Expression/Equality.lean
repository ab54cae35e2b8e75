import Stylesheet.Expression.Compiled
import Stylesheet.Proofs.Decimal

/-!
# Expressions that equal themselves

Trees are compared down to the numbers in them.  No text has a NaN as a number, so two compilations
of one text are equal.
-/

namespace Stylesheet

/-- A token that is a number is no NaN. -/
def Token.IsOrdered (token : Token) : Prop :=
  ∀ x, token.kind = .number x → x.isNaN = false

namespace Lexer

theorem isNaN_numberValue (text : List Char) : (numberValue text).isNaN = false := by
  unfold numberValue
  split
  · exact Decimal.Numeral.isNaN_toFloat _
  · decide +kernel

/-- The tokens of segments are in order. -/
theorem isOrdered_of_mem_tokensFrom {segments : List Segment} {position : Nat} {token : Token}
    (htoken : token ∈ tokensFrom position segments) : token.IsOrdered := by
  induction segments generalizing position with
  | nil =>
      rw [tokensFrom, List.mem_singleton] at htoken
      subst htoken
      exact nofun
  | cons segment rest ih =>
      rw [tokensFrom] at htoken
      cases hfirst : segment.token? position with
      | none =>
          simp only [hfirst] at htoken
          exact ih htoken
      | some first =>
          simp only [hfirst, List.mem_cons] at htoken
          rcases htoken with rfl | htoken
          · intro x hx
            obtain ⟨kind, text⟩ := segment
            cases kind with
            | blank => cases hfirst
            | number =>
                cases hfirst
                cases hx
                exact isNaN_numberValue text
            | symbol s =>
                cases hfirst
                cases hx
            | name =>
                cases hfirst
                dsimp only [nameKind] at hx
                split at hx <;> cases hx
          · exact ih htoken

end Lexer

theorem isOrdered_of_tokenize {source : String} {tokens : List Token}
    (htokens : tokenize source = .ok tokens) : ∀ token ∈ tokens, token.IsOrdered := by
  unfold tokenize at htokens
  split at htokens
  · cases htokens
    exact fun token => Lexer.isOrdered_of_mem_tokensFrom
  · cases htokens

theorem BehindCommas.mem_of_mem_piece {pieces : List (List Token)} {tokens piece : List Token}
    {token : Token} (hbehind : BehindCommas pieces tokens) (hpiece : piece ∈ pieces)
    (htoken : token ∈ piece) : token ∈ tokens := by
  induction hbehind with
  | none => cases hpiece
  | more _ _ ih =>
      simp only [List.mem_cons, List.mem_append]
      rcases List.mem_cons.mp hpiece with rfl | hpiece
      · exact .inr (.inl htoken)
      · exact .inr (.inr (ih hpiece))

theorem BetweenCommas.mem_of_mem_piece {pieces : List (List Token)} {tokens piece : List Token}
    {token : Token} (hbetween : BetweenCommas pieces tokens) (hpiece : piece ∈ pieces)
    (htoken : token ∈ piece) : token ∈ tokens := by
  cases hbetween with
  | none => cases hpiece
  | some hbehind =>
      rw [List.mem_append]
      rcases List.mem_cons.mp hpiece with rfl | hpiece
      · exact .inl htoken
      · exact .inr (hbehind.mem_of_mem_piece hpiece htoken)

theorem Expr.sameAll_self {trees : List Expr} (htrees : ∀ tree ∈ trees, tree.same tree = true) :
    sameAll trees trees = true := by
  induction trees with
  | nil => rw [sameAll]
  | cons tree rest ih =>
      rw [List.forall_mem_cons] at htrees
      rw [sameAll, htrees.1, ih htrees.2]
      rfl

/-- A tree that is derived from tokens without a NaN equals itself. -/
theorem Derives.same_self {phrase : Phrase} {tokens : List Token} {tree : Expr}
    (hderives : Derives phrase tokens tree) (hordered : ∀ token ∈ tokens, token.IsOrdered) :
    tree.same tree = true := by
  induction hderives with
  | plain _ ih | operand _ _ ih | primary _ ih => exact ih hordered
  | conditional _ _ _ _ _ ihc iha ihb =>
      simp only [List.forall_mem_append, List.forall_mem_cons] at hordered
      obtain ⟨hcondition, -, htrue, -, hfalse⟩ := hordered
      rw [Expr.same, ihc hcondition, iha htrue, ihb hfalse]
      rfl
  | joined _ _ _ _ _ iha ihb =>
      simp only [List.forall_mem_append, List.forall_mem_cons] at hordered
      rw [Expr.same, beq_self_eq_true, iha hordered.1, ihb hordered.2.2]
      rfl
  | not _ _ ih | negate _ _ ih =>
      rw [Expr.same, beq_self_eq_true, ih (List.forall_mem_cons.mp hordered).2]
      rfl
  | plus _ _ ih => exact ih (List.forall_mem_cons.mp hordered).2
  | number hkind =>
      rw [Expr.same, Decimal.beq_self_eq, List.forall_mem_singleton.mp hordered _ hkind]
      rfl
  | boolean | name => rw [Expr.same, beq_self_eq_true]
  | call _ _ _ hinner _ ih =>
      simp only [List.forall_mem_append, List.forall_mem_cons] at hordered
      have harguments := Expr.sameAll_self <| List.forall_mem_map.mpr fun argument hargument =>
        ih argument hargument fun token htoken => hordered.2.2.1 token
          (hinner.mem_of_mem_piece (List.mem_map_of_mem hargument) htoken)
      rw [Expr.same, beq_self_eq_true, harguments]
      rfl
  | group _ _ _ ih =>
      simp only [List.forall_mem_append, List.forall_mem_cons] at hordered
      exact ih hordered.2.1

/-- Two compilations of one text are equal. -/
theorem Expression.same_self_compile (source : String) :
    (compile source).same (compile source) = true := by
  rw [same, beq_self_eq_true, Bool.true_and]
  cases htree : (compile source).tree with
  | error e => exact beq_self_eq_true e.message
  | ok tree =>
      obtain ⟨tokens, htokens, hderives⟩ := Expr.derives_of_ofText htree
      apply hderives.same_self
      -- what is derived are the tokens in front of the end
      exact fun token htoken =>
        isOrdered_of_tokenize htokens token ((List.takeWhile_sublist _).subset htoken)

end Stylesheet
