import Stylesheet.Expression.Compiled
import Stylesheet.Proofs.Grammar.Lookahead
import Stylesheet.Proofs.Lexer.Boundary

/-!
# Composition of sources

Where a text that has a tree stands in parentheses, no lexeme reaches over them and no operator
around them takes a part of what is inside.  So it counts as one operand, with its tree.
-/

namespace Stylesheet

open Lexer

namespace Phrase

/-- A text is read as a phrase with a tree, wherever it stands, if what follows ends its lexemes. -/
def Spells (phrase : Phrase) (text : List Char) (tree : Expr) : Prop :=
  ∀ offset rest, EndsLexemes rest →
    ∃ read, Reads offset (text ++ rest) read rest ∧ Derives phrase read tree

variable {phrase tighter : Phrase} {text left right : List Char} {tree a b c : Expr}

/-- What is primary can stand for any phrase. -/
theorem derives_of_primary (phrase : Phrase) {tokens : List Token}
    (hprimary : Derives .primary tokens tree) : Derives phrase tokens tree := by
  have hunary : Derives .unary tokens tree := .primary hprimary
  have hproduct : Derives .product tokens tree := .operand rfl hunary
  have hsum : Derives .sum tokens tree := .operand rfl hproduct
  have hcomparison : Derives .comparison tokens tree := .operand rfl hsum
  have hand : Derives .and tokens tree := .operand rfl hcomparison
  have hor : Derives .or tokens tree := .operand rfl hand
  cases phrase with
  | primary => exact hprimary
  | unary => exact hunary
  | product => exact hproduct
  | sum => exact hsum
  | comparison => exact hcomparison
  | and => exact hand
  | or => exact hor
  | expression => exact .plain hor

/-- Any phrase is an expression. -/
theorem derives_expression {tokens : List Token} (hphrase : Derives phrase tokens tree) :
    Derives .expression tokens tree := by
  have hor (h : Derives .or tokens tree) : Derives .expression tokens tree := .plain h
  have hand (h : Derives .and tokens tree) := hor (.operand rfl h)
  have hcomparison (h : Derives .comparison tokens tree) := hand (.operand rfl h)
  have hsum (h : Derives .sum tokens tree) := hcomparison (.operand rfl h)
  have hproduct (h : Derives .product tokens tree) := hsum (.operand rfl h)
  have hunary (h : Derives .unary tokens tree) := hproduct (.operand rfl h)
  cases phrase with
  | expression => exact hphrase
  | or => exact hor hphrase
  | and => exact hand hphrase
  | comparison => exact hcomparison hphrase
  | sum => exact hsum hphrase
  | product => exact hproduct hphrase
  | unary => exact hunary hphrase
  | primary => exact hunary (.primary hphrase)

theorem Spells.of_derives {looser : Phrase} (htext : phrase.Spells text tree)
    (hlooser : ∀ {tokens : List Token}, Derives phrase tokens tree → Derives looser tokens tree) :
    looser.Spells text tree := by
  intro offset rest hrest
  obtain ⟨read, hread, hderives⟩ := htext offset rest hrest
  exact ⟨read, hread, hlooser hderives⟩

/-- Parentheses make an expression primary, and leave its tree as it is. -/
theorem Spells.group (htext : expression.Spells text tree) :
    primary.Spells ('(' :: (text ++ [')'])) tree := by
  intro offset rest _
  obtain ⟨read, hread, hderives⟩ :=
    htext (offset + 1) (')' :: rest) (endsLexemes_of_mem (by simp) rest)
  let opening : Token := ⟨.symbol .openParen, offset, false⟩
  let closing : Token := ⟨.symbol .closeParen, offset + 1 + text.length, false⟩
  have hclosing : Reads (offset + 1 + text.length) (')' :: rest) [closing] rest :=
    .symbol (s := .closeParen) (by simp [GoesOn]) (.done _ rest)
  refine ⟨opening :: (read ++ [closing]), ?_, .group rfl rfl hderives⟩
  rw [List.cons_append, List.append_assoc]
  exact .symbol (s := .openParen) (by simp [GoesOn]) (hread.append hclosing)

/-- An operator with spaces around it. -/
theorem reads_spaced {s : Token.Symbol} {rest behind : List Char} {offset : Nat}
    {tokens : List Token} (hmore : Reads (offset + s.text.toList.length + 2) rest tokens behind) :
    Reads offset (' ' :: (s.text.toList ++ ' ' :: rest))
      (⟨.symbol s, offset + 1, false⟩ :: tokens) behind := by
  refine .blank rfl (.symbol ?_ (.blank rfl ?_))
  · exact endsLexemes_blank rfl rest _ _ nofun
  · rwa [Nat.add_right_comm offset 1]

theorem Spells.joined {s : Token.Symbol} {op : BinaryOperator}
    (hphrase : phrase.operand? = some tighter) (hjoins : phrase.Joins s op)
    (hleft : phrase.Spells left a) (hright : tighter.Spells right b) :
    phrase.Spells (left ++ (' ' :: (s.text.toList ++ ' ' :: right))) (.binary op a b) := by
  intro offset rest hrest
  obtain ⟨readLeft, hreadLeft, ha⟩ := hleft offset
    (' ' :: (s.text.toList ++ ' ' :: (right ++ rest))) (endsLexemes_blank rfl _)
  obtain ⟨readRight, hreadRight, hb⟩ :=
    hright (offset + left.length + s.text.toList.length + 2) rest hrest
  let operator : Token := ⟨.symbol s, offset + left.length + 1, false⟩
  refine ⟨readLeft ++ operator :: readRight, ?_, .joined hphrase hjoins rfl ha hb⟩
  simpa using hreadLeft.append (reads_spaced hreadRight)

theorem Spells.conditional {condition whenTrue whenFalse : List Char}
    (hcondition : or.Spells condition c) (htrue : expression.Spells whenTrue a)
    (hfalse : expression.Spells whenFalse b) :
    expression.Spells
      (condition ++ (' ' :: '?' :: ' ' :: (whenTrue ++ (' ' :: ':' :: ' ' :: whenFalse))))
      (.conditional c a b) := by
  intro offset rest hrest
  obtain ⟨readCondition, hreadCondition, hc⟩ := hcondition offset
    (' ' :: '?' :: ' ' :: (whenTrue ++ (' ' :: ':' :: ' ' :: (whenFalse ++ rest))))
    (endsLexemes_blank rfl _)
  let start := offset + condition.length
  obtain ⟨readTrue, hreadTrue, ha⟩ := htrue (start + 3)
    (' ' :: ':' :: ' ' :: (whenFalse ++ rest)) (endsLexemes_blank rfl _)
  obtain ⟨readFalse, hreadFalse, hb⟩ := hfalse (start + 3 + whenTrue.length + 3) rest hrest
  let question : Token := ⟨.symbol .question, start + 1, false⟩
  let colon : Token := ⟨.symbol .colon, start + 3 + whenTrue.length + 1, false⟩
  refine ⟨readCondition ++ question :: (readTrue ++ colon :: readFalse), ?_,
    .conditional rfl rfl hc ha hb⟩
  have hcolon := reads_spaced (s := .colon) hreadFalse
  have hquestion := reads_spaced (s := .question) (hreadTrue.append hcolon)
  simpa using hreadCondition.append hquestion

/-- A sign in front of a parenthesis, which it makes no longer symbol with. -/
theorem Spells.signed {s : Token.Symbol} {op : UnaryOperator}
    (hsign : ∀ {sign : Token} {tokens : List Token}, sign.kind = .symbol s →
      Derives .unary tokens a → Derives .unary (sign :: tokens) (.unary op a))
    (htext : unary.Spells ('(' :: text) a) :
    unary.Spells (s.text.toList ++ '(' :: text) (.unary op a) := by
  intro offset rest hrest
  obtain ⟨read, hread, hderives⟩ := htext (offset + s.text.toList.length) rest hrest
  let sign : Token := ⟨.symbol s, offset, false⟩
  refine ⟨sign :: read, ?_, hsign rfl hderives⟩
  rw [List.append_assoc]
  exact .symbol (by simp [GoesOn]) hread

/-- A name that is no word, in front of two arguments. -/
theorem Spells.call {name : List Char} (hname : IsName name)
    (hother : ∀ entry ∈ words, Text.sameLetters name entry.1.toList = false)
    (hleft : expression.Spells left a) (hright : expression.Spells right b) :
    primary.Spells (name ++ ('(' :: (left ++ (',' :: ' ' :: (right ++ [')'])))))
      (.call (String.ofList name) [a, b]) := by
  intro offset rest _
  let start := offset + name.length + 1
  obtain ⟨readLeft, hreadLeft, ha⟩ := hleft start (',' :: ' ' :: (right ++ ')' :: rest))
    (endsLexemes_of_mem (by simp) _)
  obtain ⟨readRight, hreadRight, hb⟩ := hright (start + left.length + 2) (')' :: rest)
    (endsLexemes_of_mem (by simp) _)
  let function : Token := ⟨.name (String.ofList name), offset, false⟩
  let opening : Token := ⟨.symbol .openParen, offset + name.length, false⟩
  let comma : Token := ⟨.symbol .comma, start + left.length, false⟩
  let closing : Token := ⟨.symbol .closeParen, start + left.length + 2 + right.length, false⟩
  have hclosing : Reads (start + left.length + 2 + right.length) (')' :: rest) [closing] rest :=
    .symbol (s := .closeParen) (by simp [GoesOn]) (.done _ rest)
  have hcomma : Reads (start + left.length) (',' :: ' ' :: (right ++ ')' :: rest))
      (comma :: (readRight ++ [closing])) rest :=
    .symbol (s := .comma) (by simp [GoesOn]) (.blank rfl (hreadRight.append hclosing))
  have hopening : Reads (offset + name.length)
      ('(' :: (left ++ ',' :: ' ' :: (right ++ ')' :: rest)))
      (opening :: (readLeft ++ comma :: (readRight ++ [closing]))) rest :=
    .symbol (s := .openParen) (by simp [GoesOn]) (hreadLeft.append hcomma)
  have hlongest := isLongest_of_endsLexemes (.name hname) (by simp)
    (endsLexemes_of_mem (c := '(') (by simp) (left ++ ',' :: ' ' :: (right ++ ')' :: rest)))
  have hfunction : Reads offset (name ++ '(' :: (left ++ ',' :: ' ' :: (right ++ ')' :: rest)))
      (function :: opening :: (readLeft ++ comma :: (readRight ++ [closing]))) rest :=
    .token hlongest (.name hother) rfl hopening
  let arguments := [(readLeft, a), (readRight, b)]
  have hinner : BetweenCommas (arguments.map Prod.fst)
      (readLeft ++ comma :: (readRight ++ [])) := .some (.more rfl .none)
  have harguments : ∀ argument ∈ arguments, Derives .expression argument.1 argument.2 := by
    simpa [arguments] using ⟨ha, hb⟩
  have hcall := Derives.call (rfl : function.kind = .name (String.ofList name))
    (rfl : opening.kind = .symbol .openParen) (rfl : closing.kind = .symbol .closeParen) hinner
    harguments
  exact ⟨_, by simpa using hfunction, by simpa [arguments] using hcall⟩

end Phrase

open Phrase

/-- A text has a tree.  Nine units of a nesting budget for each token are enough to find it, and the
budget of a source is enough unless it is used up. -/
def ReadsAs (text : String) (tree : Expr) : Prop :=
  ∃ tokens, tokenize text = .ok tokens ∧
    (∀ budget, 9 * tokens.length + 9 ≤ budget → Parser.parseWithin budget tokens = .ok tree) ∧
    (Expr.ofText text = .ok tree ∨ Expr.ofText text = .error .tooDeep)

theorem ofText_eq_ok_iff {text : String} {tree : Expr} :
    Expr.ofText text = .ok tree ↔
      ∃ tokens, tokenize text = .ok tokens ∧ Expr.ofTokens tokens = .ok tree := by
  unfold Expr.ofText
  cases tokenize text with
  | error e => simp
  | ok tokens =>
      cases hparse : Expr.ofTokens tokens with
      | ok found => simp [hparse]
      | error failure => cases failure <;> simp [hparse]

/-- The tokens in front of the end of a source. -/
theorem beforeFinish_tokens {source : List Char} {offset : Nat} {read : List Token}
    {rest : List Char} (hreads : Reads offset source read rest) (position : Nat) :
    beforeFinish (read ++ [Token.endAt position]) = read := by
  have hread : ∀ token ∈ read, (!token.isFinish) = true := by
    intro token htoken
    obtain ⟨_, _, _, _, -, -, -, hmeaning⟩ := hreads.exists_lexeme htoken
    have hne := hmeaning.ne_finish
    cases hkind : token.kind <;> simp_all [Token.isFinish]
  rw [beforeFinish, List.takeWhile_append_of_pos hread]
  simp [Token.endAt, Token.isFinish]

/-- A text that has a tree is an expression wherever it is put. -/
theorem spells_of_ofText {text : String} {tree : Expr} (htext : Expr.ofText text = .ok tree) :
    Phrase.expression.Spells text.toList tree := by
  obtain ⟨tokens, htokens, hparse⟩ := ofText_eq_ok_iff.mp htext
  obtain ⟨read, hreads, rfl⟩ := tokenize_eq_ok_iff.mp htokens
  have hderives := Parser.derives_of_parseWithin hparse
  rw [beforeFinish_tokens hreads] at hderives
  intro offset rest hrest
  have hfront : Reads 0 (text.toList ++ rest) read rest :=
    hreads.replace_rest (by simp) (hrest.goesOnLess [])
  obtain ⟨read', hread', hkinds⟩ := hfront.shift offset
  exact ⟨read', hread', Parser.SameKinds.derives hkinds.symm hderives⟩

theorem readsAs_of_spells {text : String} {tree : Expr}
    (htext : Phrase.expression.Spells text.toList tree) : ReadsAs text tree := by
  obtain ⟨read, hread, hderives⟩ := htext 0 [] endsLexemes_nil
  rw [List.append_nil] at hread
  have htokens := tokenize_eq_ok_iff.mpr ⟨read, hread, rfl⟩
  rw [← beforeFinish_tokens hread text.length] at hderives
  have hparse := Parser.parseWithin_of_derives hderives
  refine ⟨_, htokens, fun budget hbudget => ?_, ?_⟩
  · exact (hparse budget).resolve_right (Parser.parseWithin_ne_tooDeep hbudget)
  · rcases hparse Parser.nestingLimit with hok | hdeep
    · exact Or.inl (ofText_eq_ok_iff.mpr ⟨_, htokens, hok⟩)
    · refine Or.inr ?_
      simp only [Expr.ofText, htokens, Expr.ofTokens, hdeep]

/-- Texts that have trees are put together faithfully by operators, signs, conditionals and calls
when they stand in parentheses, unless the whole is nested too deeply. -/
theorem ofText_composition {s t u : String} {a b c : Expr} (hs : Expr.ofText s = .ok a)
    (ht : Expr.ofText t = .ok b) (hu : Expr.ofText u = .ok c) :
    (∀ phrase symbol op, Phrase.Joins phrase symbol op →
      ReadsAs ("(" ++ s ++ ") " ++ symbol.text ++ " (" ++ t ++ ")") (.binary op a b)) ∧
    ReadsAs ("!(" ++ s ++ ")") (.unary .not a) ∧
    ReadsAs ("-(" ++ s ++ ")") (.unary .negate a) ∧
    ReadsAs ("(" ++ s ++ ") ? (" ++ t ++ ") : (" ++ u ++ ")") (.conditional a b c) ∧
    (∀ f : String, IsName f.toList →
      (∀ entry ∈ words, Text.sameLetters f.toList entry.1.toList = false) →
      ReadsAs (f ++ "(" ++ s ++ ", " ++ t ++ ")") (.call f [a, b])) ∧
    ReadsAs ("(" ++ s ++ ")") a := by
  have ha := spells_of_ofText hs
  have hb := spells_of_ofText ht
  have hc := spells_of_ofText hu
  have haGroup (phrase : Phrase) := ha.group.of_derives (derives_of_primary phrase)
  have hbGroup (phrase : Phrase) := hb.group.of_derives (derives_of_primary phrase)
  have hcGroup (phrase : Phrase) := hc.group.of_derives (derives_of_primary phrase)
  refine ⟨?_, ?_, ?_, ?_, ?_, ?_⟩
  · intro phrase symbol op hjoins
    have htighter : ∃ tighter, phrase.operand? = some tighter := by
      cases hjoins <;> exact ⟨_, rfl⟩
    obtain ⟨tighter, hphrase⟩ := htighter
    have hjoined := Spells.joined hphrase hjoins (haGroup phrase) (hbGroup tighter)
    apply readsAs_of_spells
    simpa using hjoined.of_derives derives_expression
  · have hnot := Spells.signed .not (haGroup .unary)
    apply readsAs_of_spells
    simpa [Token.Symbol.text] using hnot.of_derives derives_expression
  · have hnegate := Spells.signed .negate (haGroup .unary)
    apply readsAs_of_spells
    simpa [Token.Symbol.text] using hnegate.of_derives derives_expression
  · apply readsAs_of_spells
    simpa using Spells.conditional (haGroup .or) (hbGroup .expression) (hcGroup .expression)
  · intro f hname hother
    have hcall := Spells.call hname hother ha hb
    apply readsAs_of_spells
    simpa using hcall.of_derives derives_expression
  · apply readsAs_of_spells
    simpa using haGroup .expression

/-- A conditional and a disjunction as operands: neither leaks out of its parentheses. -/
theorem ofText_composition_loose_operands :
    let a := Expr.conditional (.name "a") (.name "b") (.name "c")
    let b := Expr.binary .or (.name "x") (.name "y")
    Expr.ofText "a ? b : c" = .ok a ∧ Expr.ofText "x or y" = .ok b ∧
      ReadsAs "(a ? b : c) && (x or y)" (.binary .and a b) ∧
      ReadsAs "!(a ? b : c)" (.unary .not a) ∧
      ReadsAs "-(a ? b : c)" (.unary .negate a) ∧
      ReadsAs "(a ? b : c) ? (x or y) : (a ? b : c)" (.conditional a b a) ∧
      ReadsAs "math.max(a ? b : c, x or y)" (.call "math.max" [a, b]) ∧
      ReadsAs "(a ? b : c)" a := by
  intro a b
  have ha : Expr.ofText "a ? b : c" = .ok a := rfl
  have hb : Expr.ofText "x or y" = .ok b := rfl
  obtain ⟨hbinary, hnot, hnegate, hconditional, hcall, hgroup⟩ := ofText_composition ha hb ha
  have hname : IsName ("math".toList ++ '.' :: "max".toList) :=
    .dotted ⟨'m', ['a', 't', 'h'], rfl, rfl, by simp [isNameRest]⟩
      (.part ⟨'m', ['a', 'x'], rfl, rfl, by simp [isNameRest]⟩)
  have hother : ∀ entry ∈ words,
      Text.sameLetters "math.max".toList entry.1.toList = false := by
    simp [words, Text.sameLetters]
  exact ⟨ha, hb, hbinary .and .and .and .and, hnot, hnegate, hconditional,
    hcall "math.max" hname hother, hgroup⟩

end Stylesheet
