import Stylesheet.Proofs.Grammar

/-!
# The trees of the language

What the grammar derives has nodes of the language alone.  Trees that are put together by other
means can have others.
-/

namespace Stylesheet

namespace Expr

/-- Whether the language has a node, apart from what is below it. -/
def IsNative : Expr → Prop
  | .unary op _ => ∀ symbol, op ≠ .unlisted symbol
  | .binary op _ _ => ∀ symbol, op ≠ .unlisted symbol
  | .foreign _ => False
  | _ => True

/-- The trees of the language. -/
def InLanguage (tree : Expr) : Prop :=
  ∀ depth part, tree.HasPart depth part → part.IsNative

theorem inLanguage_of_children {tree : Expr} (hnative : tree.IsNative)
    (hchildren : ∀ child ∈ tree.children, child.InLanguage) : tree.InLanguage := by
  intro depth part hpart
  cases hpart with
  | self => exact hnative
  | child hchild hpart => exact hchildren _ hchild _ _ hpart

end Expr

theorem Phrase.Joins.ne_unlisted {phrase : Phrase} {symbol : Token.Symbol} {op : BinaryOperator}
    (hjoins : phrase.Joins symbol op) (text : String) : op ≠ .unlisted text := by
  cases hjoins <;> nofun

/-- What the grammar derives is of the language. -/
theorem Derives.inLanguage {phrase : Phrase} {tokens : List Token} {tree : Expr}
    (hderives : Derives phrase tokens tree) : tree.InLanguage := by
  induction hderives with
  | plain _ ih | operand _ _ ih | plus _ _ ih | primary _ ih | group _ _ _ ih => exact ih
  | conditional _ _ _ _ _ ihc iha ihb =>
      refine Expr.inLanguage_of_children trivial ?_
      simp only [Expr.children, List.forall_mem_cons]
      exact ⟨ihc, iha, ihb, nofun⟩
  | joined _ hjoins _ _ _ iha ihb =>
      refine Expr.inLanguage_of_children hjoins.ne_unlisted ?_
      simp only [Expr.children, List.forall_mem_cons]
      exact ⟨iha, ihb, nofun⟩
  | not _ _ ih | negate _ _ ih =>
      refine Expr.inLanguage_of_children (fun _ => nofun) ?_
      simp only [Expr.children, List.forall_mem_cons]
      exact ⟨ih, nofun⟩
  | number | boolean | name => exact Expr.inLanguage_of_children trivial nofun
  | call _ _ _ _ _ ih =>
      refine Expr.inLanguage_of_children trivial ?_
      simp only [Expr.children, List.forall_mem_map]
      exact ih

theorem Expr.InLanguage.isSafe {tree : Expr} (hlanguage : tree.InLanguage) : tree.IsSafe :=
  fun depth hpart => hlanguage depth _ hpart

end Stylesheet
