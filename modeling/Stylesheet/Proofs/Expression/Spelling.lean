import Mathlib.Logic.Relation
import Stylesheet.Proofs.Grammar.Viable
import Stylesheet.Proofs.Lexer.Boundary

/-!
# Spellings

White space between lexemes, the case of words and the choice between a symbol and its word make no
difference to the tokens of a source but for their places, and so none to its tree.
-/

namespace Stylesheet

open Lexer Text

/-- White space or nothing. -/
def IsGap (gap : List Char) : Prop :=
  ∀ c ∈ gap, isBlank c = true

/-- A place in a text that no lexeme lies across. -/
def IsPlace (front back : List Char) : Prop :=
  ∃ read, Reads 0 (front ++ back) read back

/-- Texts that differ in the spelling at one place. -/
inductive Respells : List Char → List Char → Prop where
  /-- White space is put in, or replaced by other white space. -/
  | space {front gap gap' back : List Char} (hplace : IsPlace front (gap ++ back))
      (hgap : IsGap gap) (hgap' : IsGap gap') (hne : gap' ≠ []) :
      Respells (front ++ (gap ++ back)) (front ++ (gap' ++ back))
  /-- A word gets other letter cases. -/
  | recase {front lexeme lexeme' back : List Char} {entry : String × Token.Kind × Bool}
      (hplace : IsPlace front (lexeme ++ back)) (hlongest : IsLongest .name lexeme back)
      (hword : entry ∈ words) (hsame : sameLetters lexeme entry.1.toList = true)
      (hsame' : sameLetters lexeme' entry.1.toList = true) :
      Respells (front ++ (lexeme ++ back)) (front ++ (lexeme' ++ back))
  /-- A symbol gives way to another spelling of it, with white space or an end of the text on
  either side. -/
  | exchange {front gap lexeme behind back gap' lexeme' behind' : List Char} {s : Token.Symbol}
      {kind kind' : SegmentClass} {asWord asWord' : Bool}
      (hplace : IsPlace front (gap ++ (lexeme ++ behind) ++ back)) (hgap : IsGap gap)
      (hlongest : IsLongest kind lexeme (behind ++ back))
      (hmeaning : StandsFor kind lexeme (.symbol s, asWord)) (hbehind : IsGap behind)
      (hgap' : IsGap gap') (hopen : gap' ≠ [] ∨ front = []) (hlexeme' : Lexeme kind' lexeme')
      (hmeaning' : StandsFor kind' lexeme' (.symbol s, asWord')) (hbehind' : IsGap behind')
      (hclose : behind' ≠ [] ∨ back = []) :
      Respells (front ++ (gap ++ (lexeme ++ behind) ++ back))
        (front ++ (gap' ++ (lexeme' ++ behind') ++ back))

variable {front back gap lexeme text : List Char} {c : Char}

theorem IsGap.endsLexemes (hgap : IsGap gap) (hne : gap ≠ [] ∨ back = []) :
    EndsLexemes (gap ++ back) := by
  rcases gap with - | ⟨c, gap⟩
  · obtain rfl : back = [] := by simpa using hne
    exact endsLexemes_nil
  · exact endsLexemes_blank (hgap c List.mem_cons_self) _

theorem isAlpha_of_isAlpha_toLower (hc : c.toLower.isAlpha = true) : c.isAlpha = true := by
  unfold Char.toLower at hc
  split at hc
  · next hupper => exact isAlpha_iff.mpr (Or.inl hupper)
  · exact hc

/-- What has the letters of a word is a name. -/
theorem isName_of_sameLetters {entry : String × Token.Kind × Bool} (hword : entry ∈ words)
    (hsame : sameLetters text entry.1.toList = true) : IsName text := by
  have hletters : words.all (fun entry => !entry.1.toList.isEmpty &&
      (entry.1.toList.map Char.toLower).all Char.isAlpha) = true := rfl
  obtain ⟨hne, hlower⟩ : entry.1.toList ≠ [] ∧
      ∀ c ∈ entry.1.toList.map Char.toLower, c.isAlpha = true := by
    simpa using List.all_eq_true.mp hletters entry hword
  have hmap := sameLetters_iff.mp hsame
  have halpha (c : Char) (hc : c ∈ text) : c.isAlpha = true := by
    apply isAlpha_of_isAlpha_toLower
    apply hlower
    rw [← hmap]
    exact List.mem_map_of_mem hc
  rcases text with - | ⟨first, more⟩
  · exact absurd (List.map_eq_nil_iff.mp hmap.symm) hne
  · refine .part ⟨first, more, rfl, ?_, fun c hc => ?_⟩
    · simp [isNameStart, halpha first List.mem_cons_self]
    · simp [isNameRest, Char.isAlphanum, halpha c (List.mem_cons_of_mem first hc)]

/-- What goes on in front of a name goes on in front of any other. -/
theorem goesOnLess_of_isName {name name' : List Char} (hname : IsName name) (hname' : IsName name')
    (back : List Char) : GoesOnLess (name ++ back) (name' ++ back) := by
  obtain ⟨c, more, rfl, hc⟩ := hname.exists_cons
  obtain ⟨c', more', rfl, hc'⟩ := hname'.exists_cons
  intro kind text hkind hgoes
  have hdigit := isDigit_eq_false_of_isNameStart hc
  have hsign : c ≠ '.' ∧ c ≠ '=' := by
    constructor
    · rintro rfl
      cases hc
    · rintro rfl
      cases hc
  cases kind with
  | blank => exact absurd rfl hkind
  | number => simp [GoesOn, hdigit, hsign] at hgoes
  | name => exact Or.inl ⟨c', rfl, isNameRest_of_isNameStart hc'⟩
  | symbol s => simp [GoesOn, hsign] at hgoes

/-- A lexeme with white space around it is one token. -/
theorem reads_in_gaps {behind : List Char} {kind : SegmentClass} {meaning : Token.Kind × Bool}
    (offset : Nat) (hgap : IsGap gap) (hlongest : IsLongest kind lexeme (behind ++ back))
    (hmeaning : StandsFor kind lexeme meaning) (hbehind : IsGap behind) :
    ∃ token, Reads offset (gap ++ (lexeme ++ behind) ++ back) [token] back ∧
      token.kind = meaning.1 := by
  refine ⟨⟨meaning.1, offset + gap.length, meaning.2⟩, ?_, rfl⟩
  rw [List.append_assoc, List.append_assoc]
  exact .skip hgap (.token hlongest hmeaning rfl (.skip hbehind (.done _ back)))

/-- Before and behind a change of spelling the same kinds of tokens are read. -/
theorem Respells.exists_reads {text' : List Char} {tokens : List Token}
    (hrespells : Respells text text') (hreads : Reads 0 text tokens []) :
    ∃ tokens', Reads 0 text' tokens' [] ∧ tokens'.map Token.kind = tokens.map Token.kind := by
  induction hrespells with
  | @space front gap gap' back hplace hgap hgap' hne =>
      obtain ⟨read, hread⟩ := hplace
      have hends : EndsLexemes (gap' ++ back) := hgap'.endsLexemes (Or.inl hne)
      exact hread.replace (hread.replace_rest rfl (hends.goesOnLess _)) (.skip hgap (.done _ back))
        (.skip hgap' (.done _ back)) rfl hreads
  | @recase front lexeme lexeme' back entry hplace hlongest hword hsame hsame' =>
      obtain ⟨read, hread⟩ := hplace
      have hname := isName_of_sameLetters hword hsame
      have hname' := isName_of_sameLetters hword hsame'
      have hlongest' : IsLongest .name lexeme' back :=
        isLongest_iff.mpr ⟨.name hname', (isLongest_iff.mp hlongest).2⟩
      let token : Token := ⟨entry.2.1, front.length, entry.2.2⟩
      have hold : Reads front.length (lexeme ++ back) [token] back :=
        .token hlongest (.word hword hsame) rfl (.done _ back)
      have hnew : Reads front.length (lexeme' ++ back) [token] back :=
        .token hlongest' (.word hword hsame') rfl (.done _ back)
      exact hread.replace (hread.replace_rest rfl (goesOnLess_of_isName hname' hname back)) hold
        hnew rfl hreads
  | @exchange front gap lexeme behind back gap' lexeme' behind' s kind kind' asWord asWord' hplace
      hgap hlongest hmeaning hbehind hgap' hopen hlexeme' hmeaning' hbehind' hclose =>
      have hlongest' : IsLongest kind' lexeme' (behind' ++ back) :=
        isLongest_of_endsLexemes hlexeme' hmeaning'.ne_blank (hbehind'.endsLexemes hclose)
      obtain ⟨token, hold, hkind⟩ := reads_in_gaps front.length hgap hlongest hmeaning hbehind
      obtain ⟨token', hnew, hkind'⟩ :=
        reads_in_gaps front.length hgap' hlongest' hmeaning' hbehind'
      have hkinds : [token'].map Token.kind = [token].map Token.kind := by simp [hkind, hkind']
      have hplaces : ∃ read,
          Reads 0 (front ++ (gap ++ (lexeme ++ behind) ++ back)) read
            (gap ++ (lexeme ++ behind) ++ back) ∧
          Reads 0 (front ++ (gap' ++ (lexeme' ++ behind') ++ back)) read
            (gap' ++ (lexeme' ++ behind') ++ back) := by
        rcases hopen with hne | rfl
        · obtain ⟨read, hread⟩ := hplace
          have hends : EndsLexemes (gap' ++ (lexeme' ++ behind' ++ back)) :=
            hgap'.endsLexemes (Or.inl hne)
          rw [← List.append_assoc] at hends
          exact ⟨read, hread, hread.replace_rest rfl (hends.goesOnLess _)⟩
        · exact ⟨[], .done 0 _, .done 0 _⟩
      obtain ⟨read, hread, hread'⟩ := hplaces
      exact hread.replace hread' hold hnew hkinds hreads

/-- The induction is on the changes, one after another. -/
theorem exists_reads_of_respells {text' : List Char} {tokens : List Token}
    (hrespells : Relation.ReflTransGen Respells text text') (hreads : Reads 0 text tokens []) :
    ∃ tokens', Reads 0 text' tokens' [] ∧ tokens'.map Token.kind = tokens.map Token.kind := by
  induction hrespells with
  | refl => exact ⟨tokens, hreads, rfl⟩
  | tail _ hstep ih =>
      obtain ⟨read, hread, hkinds⟩ := ih
      obtain ⟨read', hread', hkinds'⟩ := hstep.exists_reads hread
      exact ⟨read', hread', hkinds'.trans hkinds⟩

/-- Parsing two lists of tokens comes to the same tree, or to the same fault at the same place, or
to the end of the nesting budget. -/
inductive SameOutcome (tokens tokens' : List Token) :
    Except Parser.Failure Expr → Except Parser.Failure Expr → Prop where
  | tree (tree : Expr) : SameOutcome tokens tokens' (.ok tree) (.ok tree)
  | fault (what : SyntaxFault) (index : Nat) (hindex : index < tokens.length) :
      SameOutcome tokens tokens' (.error (.malformed ⟨what, tokens.drop index⟩))
        (.error (.malformed ⟨what, tokens'.drop index⟩))
  | tooDeep : SameOutcome tokens tokens' (.error .tooDeep) (.error .tooDeep)

theorem sameOutcome_of_sameKinds {tokens tokens' : List Token}
    (hsame : Parser.SameKinds tokens tokens') {last : Token} (hlast : tokens.getLast? = some last)
    (hfinish : last.isFinish = true) :
    SameOutcome tokens tokens' (Expr.ofTokens tokens) (Expr.ofTokens tokens') := by
  cases hparse : Expr.ofTokens tokens with
  | ok tree =>
      rw [show Expr.ofTokens tokens' = .ok tree from hsame.parseWithin_eq_ok hparse]
      exact .tree tree
  | error failure =>
      cases failure with
      | tooDeep =>
          rw [show Expr.ofTokens tokens' = .error .tooDeep from hsame.parseWithin_eq_tooDeep hparse]
          exact .tooDeep
      | malformed e =>
          obtain ⟨what, unread⟩ := e
          obtain ⟨index, rfl, hparse'⟩ := hsame.parseWithin_eq_malformed hparse
          rw [show Expr.ofTokens tokens' = _ from hparse']
          have hne := Parser.unread_ne_nil hlast hfinish hparse
          exact .fault what index (by simpa using hne)

/-- However a source is spelled, its tokens are of the same kinds and have the same tree, or they
have the same fault at the corresponding token. -/
theorem tokenize_respelled {source source' : String} {tokens : List Token}
    (hrespells : Relation.ReflTransGen Respells source.toList source'.toList)
    (htokens : tokenize source = .ok tokens) :
    ∃ tokens', tokenize source' = .ok tokens' ∧
      tokens'.map Token.kind = tokens.map Token.kind ∧
      SameOutcome tokens tokens' (Expr.ofTokens tokens) (Expr.ofTokens tokens') := by
  obtain ⟨read, hread, rfl⟩ := tokenize_eq_ok_iff.mp htokens
  obtain ⟨read', hread', hkinds⟩ := exists_reads_of_respells hrespells hread
  have hsame : (read' ++ [Token.endAt source'.length]).map Token.kind =
      (read ++ [Token.endAt source.length]).map Token.kind := by
    simp [hkinds, Token.endAt]
  refine ⟨_, tokenize_eq_ok_iff.mpr ⟨read', hread', rfl⟩, hsame, ?_⟩
  exact sameOutcome_of_sameKinds hsame.symm (List.getLast?_concat) rfl

/-- A sign becomes a word, while the symbol that starts with a sign stays, and a space comes to the
end. -/
theorem tokenize_respelled_sign :
    ∃ tokens tokens', tokenize "!a!=b" = .ok tokens ∧ tokenize "not a!=b " = .ok tokens' ∧
      tokens'.map Token.kind = tokens.map Token.kind ∧
      SameOutcome tokens tokens' (Expr.ofTokens tokens) (Expr.ofTokens tokens') := by
  have hnil : IsGap [] := nofun
  have hspace : IsGap [' '] := by simp [IsGap, isBlank, blankRanges]
  have hlongest : IsLongest (.symbol .not) ['!'] ([] ++ "a!=b".toList) :=
    isLongest_iff.mpr ⟨.symbol .not, by simp [GoesOn]⟩
  have hname : Lexeme .name "not".toList :=
    .name (.part ⟨'n', ['o', 't'], rfl, rfl, by simp [isNameRest]⟩)
  have hword : StandsFor .name "not".toList (.symbol .not, true) :=
    @StandsFor.word _ "not" _ (by simp [words]) rfl
  have hsign : Respells ([] ++ ([] ++ (['!'] ++ []) ++ "a!=b".toList))
      ([] ++ ([] ++ ("not".toList ++ [' ']) ++ "a!=b".toList)) :=
    .exchange ⟨[], .done 0 _⟩ hnil hlongest .symbol hnil hnil (Or.inr rfl) hname hword hspace
      (Or.inl (List.cons_ne_nil _ _))
  obtain ⟨read, hread, -⟩ := tokenize_eq_ok_iff.mp (rfl : tokenize "not a!=b" = .ok _)
  have hend : Respells ("not a!=b".toList ++ ([] ++ [])) ("not a!=b".toList ++ ([' '] ++ [])) :=
    .space ⟨read, by simpa using hread⟩ hnil hspace (List.cons_ne_nil _ _)
  have hrespells : Relation.ReflTransGen Respells "!a!=b".toList "not a!=b ".toList :=
    .tail (.single hsign) hend
  have htokens : ∃ tokens, tokenize "!a!=b" = .ok tokens := ⟨_, rfl⟩
  obtain ⟨tokens, htokens⟩ := htokens
  obtain ⟨tokens', htokens', hkinds, houtcome⟩ := tokenize_respelled hrespells htokens
  exact ⟨tokens, tokens', htokens, htokens', hkinds, houtcome⟩

end Stylesheet
