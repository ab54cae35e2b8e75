import Stylesheet.Proofs.Lexer.Front
import Stylesheet.Text.Uppercase

/-!
# Maximal munch

Reading a text from its front, white space is skipped and everything else is taken in lexemes, each
the longest at its place.  There is one way to do so until nothing can be taken, and it is what the
tokens of a source come from.
-/

namespace Stylesheet

namespace Lexer

open Text

variable {kind : SegmentClass} {text rest : List Char} {c : Char}

/-- The words that stand for something else than a name, and whether they are other spellings of
symbols. -/
def words : List (String × Token.Kind × Bool) := [
  ("true", .boolean true, false), ("false", .boolean false, false),
  ("and", .symbol .and, true), ("or", .symbol .or, true), ("not", .symbol .not, true)]

/-- What a lexeme stands for.  Names are compared with the words as a whole, in whatever case. -/
inductive StandsFor : SegmentClass → List Char → Token.Kind × Bool → Prop where
  | number {text : List Char} : StandsFor .number text (.number (numberValue text), false)
  | symbol {s : Token.Symbol} {text : List Char} : StandsFor (.symbol s) text (.symbol s, false)
  | word {text : List Char} {word : String} {meaning : Token.Kind × Bool}
      (hword : (word, meaning) ∈ words) (hsame : sameLetters text word.toList = true) :
      StandsFor .name text meaning
  | name {text : List Char} (hother : ∀ entry ∈ words, sameLetters text entry.1.toList = false) :
      StandsFor .name text (.name (String.ofList text), false)

/-- Reading tokens off the front of a text that starts at an offset, up to some rest. -/
inductive Reads : Nat → List Char → List Token → List Char → Prop where
  | done (offset : Nat) (rest : List Char) : Reads offset rest [] rest
  | blank {offset : Nat} {c : Char} {text rest : List Char} {tokens : List Token}
      (hblank : isBlank c = true) (hmore : Reads (offset + 1) text tokens rest) :
      Reads offset (c :: text) tokens rest
  | token {offset : Nat} {kind : SegmentClass} {lexeme text rest : List Char} {token : Token}
      {tokens : List Token} (hlongest : IsLongest kind lexeme text)
      (hmeaning : StandsFor kind lexeme (token.kind, token.asWord))
      (hposition : token.position = offset)
      (hmore : Reads (offset + lexeme.length) text tokens rest) :
      Reads offset (lexeme ++ text) (token :: tokens) rest

theorem sameLetters_iff {a b : List Char} :
    sameLetters a b = true ↔ a.map Char.toLower = b.map Char.toLower :=
  beq_iff_eq

/-- What names stand for is what they are read as. -/
theorem standsFor_name_iff {meaning : Token.Kind × Bool} :
    StandsFor .name text meaning ↔ nameKind text = meaning := by
  have hlower (word : String) (hword : word.toList.map Char.toLower = word.toList) :
      sameLetters text word.toList = true ↔ String.ofList (text.map Char.toLower) = word := by
    rw [sameLetters_iff, hword, ← String.toList_inj, String.toList_ofList]
  have htrue := hlower "true" (by decide)
  have hfalse := hlower "false" (by decide)
  have hand := hlower "and" (by decide)
  have hor := hlower "or" (by decide)
  have hnot := hlower "not" (by decide)
  constructor
  · rintro (_ | _ | ⟨hword, hsame⟩ | hother)
    · simp only [words, List.mem_cons, Prod.mk.injEq, List.not_mem_nil, or_false] at hword
      rcases hword with ⟨rfl, rfl⟩ | ⟨rfl, rfl⟩ | ⟨rfl, rfl⟩ | ⟨rfl, rfl⟩ | ⟨rfl, rfl⟩
      · simp [nameKind, htrue.mp hsame]
      · simp [nameKind, hfalse.mp hsame]
      · simp [nameKind, hand.mp hsame]
      · simp [nameKind, hor.mp hsame]
      · simp [nameKind, hnot.mp hsame]
    · simp only [words, List.forall_mem_cons, ← Bool.not_eq_true, htrue, hfalse, hand, hor, hnot]
        at hother
      unfold nameKind
      split <;> simp_all
  · rintro rfl
    unfold nameKind
    split
    · next hword => exact @StandsFor.word _ "true" _ (by simp [words]) (htrue.mpr hword)
    · next hword => exact @StandsFor.word _ "false" _ (by simp [words]) (hfalse.mpr hword)
    · next hword => exact @StandsFor.word _ "and" _ (by simp [words]) (hand.mpr hword)
    · next hword => exact @StandsFor.word _ "or" _ (by simp [words]) (hor.mpr hword)
    · next hword => exact @StandsFor.word _ "not" _ (by simp [words]) (hnot.mpr hword)
    · refine .name ?_
      simp only [words, List.forall_mem_cons, ← Bool.not_eq_true, htrue, hfalse, hand, hor, hnot]
      simp_all

theorem StandsFor.unique {meaning meaning' : Token.Kind × Bool}
    (hmeaning : StandsFor kind text meaning) (hmeaning' : StandsFor kind text meaning') :
    meaning = meaning' := by
  cases kind with
  | blank => cases hmeaning
  | number =>
      cases hmeaning
      cases hmeaning'
      rfl
  | name => exact (standsFor_name_iff.mp hmeaning).symm.trans (standsFor_name_iff.mp hmeaning')
  | symbol s =>
      cases hmeaning
      cases hmeaning'
      rfl

theorem symbol?_text (s : Token.Symbol) :
    symbol? s.text.toList = some (s, s.text.toList.length) := by
  cases s <;> rfl

/-- A text has one class at most. -/
theorem Lexeme.kind_unique (hlexeme : Lexeme kind text) {kind' : SegmentClass}
    (hlexeme' : Lexeme kind' text) : kind = kind' := by
  obtain ⟨first, more, rfl⟩ := List.exists_cons_of_ne_nil hlexeme.ne_nil
  have halike := hlexeme.alike hlexeme'
  generalize hwhole : first :: more = whole at hlexeme hlexeme'
  induction hlexeme with
  | symbol s =>
      generalize hsame : s.text.toList = other at hlexeme'
      induction hlexeme' with
      | symbol s' =>
          have hread := symbol?_text s
          rw [hsame, symbol?_text s'] at hread
          cases hread
          rfl
      | blank _ _ => cases halike
      | number _ => cases halike
      | name _ => cases halike
  | blank _ _ => cases kind' <;> cases halike; rfl
  | number _ => cases kind' <;> cases halike; rfl
  | name _ => cases kind' <;> cases halike; rfl

theorem IsLongest.unique {kind' : SegmentClass} {text' rest' : List Char}
    (hlongest : IsLongest kind text rest) (hlongest' : IsLongest kind' text' rest')
    (hsame : text ++ rest = text' ++ rest') : kind = kind' ∧ text = text' ∧ rest = rest' := by
  have hle := hlongest.longest hlongest'.lexeme ⟨rest', hsame.symm⟩
  have hge := hlongest'.longest hlongest.lexeme ⟨rest, hsame⟩
  obtain ⟨rfl, rfl⟩ := List.append_inj hsame (Nat.le_antisymm hge hle)
  exact ⟨hlongest.lexeme.kind_unique hlongest'.lexeme, rfl, rfl⟩

theorem StandsFor.ne_blank {meaning : Token.Kind × Bool} (hmeaning : StandsFor kind text meaning) :
    kind ≠ .blank := by
  rintro rfl
  cases hmeaning

/-- White space starts no lexeme that stands for something. -/
theorem Lexeme.isBlank_eq_false {more : List Char} (hlexeme : Lexeme kind (c :: more))
    (hkind : kind ≠ .blank) : isBlank c = false := by
  rw [Bool.eq_false_iff]
  intro hblank
  have hrun : Lexeme .blank [c] := .blank (by simp) (by simpa using hblank)
  have halike := hrun.alike hlexeme
  cases kind <;> cases halike
  exact hkind rfl

namespace Reads

variable {offset : Nat} {tokens : List Token}

/-- The first step of a reading. -/
theorem step (hreads : Reads offset text tokens rest) :
    (tokens = [] ∧ text = rest) ∨
      (∃ c more, text = c :: more ∧ isBlank c = true ∧ Reads (offset + 1) more tokens rest) ∨
      ∃ kind lexeme more token others, text = lexeme ++ more ∧ tokens = token :: others ∧
        IsLongest kind lexeme more ∧ StandsFor kind lexeme (token.kind, token.asWord) ∧
        token.position = offset ∧ Reads (offset + lexeme.length) more others rest := by
  induction hreads with
  | done => exact Or.inl ⟨rfl, rfl⟩
  | blank hblank hmore _ => exact Or.inr (Or.inl ⟨_, _, rfl, hblank, hmore⟩)
  | token hlongest hmeaning hposition hmore _ =>
      exact Or.inr (Or.inr ⟨_, _, _, _, _, rfl, rfl, hlongest, hmeaning, hposition, hmore⟩)

theorem not_isStuck_of_blank {more : List Char} (hblank : isBlank c = true) :
    ¬ IsStuck (c :: more) := by
  have hrun : Lexeme .blank [c] := .blank (by simp) (by simpa using hblank)
  exact hrun.not_isStuck more

/-- There is one way to read a text until nothing can be read. -/
theorem unique {tokens' : List Token} {rest' : List Char} (hreads : Reads offset text tokens rest)
    (hstuck : IsStuck rest) (hreads' : Reads offset text tokens' rest') (hstuck' : IsStuck rest') :
    tokens = tokens' ∧ rest = rest' := by
  induction hreads generalizing tokens' with
  | done offset rest =>
      rcases hreads'.step with ⟨rfl, rfl⟩ | ⟨c, more, rfl, hblank, -⟩ |
        ⟨kind, lexeme, more, token, others, rfl, -, hlongest, -, -, -⟩
      · exact ⟨rfl, rfl⟩
      · exact absurd hstuck (not_isStuck_of_blank hblank)
      · exact absurd hstuck (hlongest.lexeme.not_isStuck more)
  | @blank offset c text rest tokens hblank hmore ih =>
      rcases hreads'.step with ⟨-, rfl⟩ | ⟨c', more, hcons, -, hreads'⟩ |
        ⟨kind, lexeme, more, token, others, hlexeme, -, hlongest, hmeaning, -, -⟩
      · exact absurd hstuck' (not_isStuck_of_blank hblank)
      · cases hcons
        exact ih hstuck hreads'
      · obtain ⟨first, behind, rfl⟩ := List.exists_cons_of_ne_nil hlongest.lexeme.ne_nil
        cases hlexeme
        have hnot := hlongest.lexeme.isBlank_eq_false hmeaning.ne_blank
        simp [hblank] at hnot
  | @token offset kind lexeme text rest token tokens hlongest hmeaning hposition hmore ih =>
      rcases hreads'.step with ⟨-, rfl⟩ | ⟨c, more, hcons, hblank, -⟩ |
        ⟨kind', lexeme', more, token', others, hlexeme, rfl, hlongest', hmeaning', hposition',
          hreads'⟩
      · exact absurd hstuck' (hlongest.lexeme.not_isStuck text)
      · obtain ⟨first, behind, rfl⟩ := List.exists_cons_of_ne_nil hlongest.lexeme.ne_nil
        cases hcons
        have hnot := hlongest.lexeme.isBlank_eq_false hmeaning.ne_blank
        simp [hblank] at hnot
      · obtain ⟨rfl, rfl, rfl⟩ := hlongest.unique hlongest' hlexeme
        obtain ⟨rfl, rfl⟩ := ih hstuck hreads'
        have hsame := hmeaning.unique hmeaning'
        obtain ⟨tokenKind, position, asWord⟩ := token
        obtain ⟨tokenKind', position', asWord'⟩ := token'
        cases hsame
        cases hposition
        cases hposition'
        exact ⟨rfl, rfl⟩

/-- White space is skipped. -/
theorem skip {run : List Char} (hrun : ∀ c ∈ run, isBlank c = true)
    (hmore : Reads (offset + run.length) text tokens rest) :
    Reads offset (run ++ text) tokens rest := by
  induction run generalizing offset with
  | nil => exact hmore
  | cons c run ih =>
      simp only [List.forall_mem_cons] at hrun
      refine .blank hrun.1 (ih hrun.2 ?_)
      rwa [List.length_cons, Nat.add_comm run.length, ← Nat.add_assoc] at hmore

/-- What is read and what is left make up the text. -/
theorem exists_append (hreads : Reads offset text tokens rest) :
    ∃ front, text = front ++ rest := by
  induction hreads with
  | done => exact ⟨[], rfl⟩
  | @blank _ c _ _ _ _ _ ih =>
      obtain ⟨front, rfl⟩ := ih
      exact ⟨c :: front, rfl⟩
  | @token _ _ lexeme _ _ _ _ _ _ _ _ ih =>
      obtain ⟨front, rfl⟩ := ih
      exact ⟨lexeme ++ front, by simp⟩

/-- Every token that is read stands where its lexeme starts. -/
theorem exists_lexeme (hreads : Reads offset text tokens rest) {token : Token}
    (htoken : token ∈ tokens) :
    ∃ kind before lexeme behind, text = before ++ lexeme ++ behind ∧
      token.position = offset + before.length ∧ IsLongest kind lexeme behind ∧
      StandsFor kind lexeme (token.kind, token.asWord) := by
  induction hreads with
  | done => cases htoken
  | @blank _ c _ _ _ _ _ ih =>
      obtain ⟨kind, before, lexeme, behind, rfl, hposition, hlongest, hmeaning⟩ := ih htoken
      refine ⟨kind, c :: before, lexeme, behind, rfl, ?_, hlongest, hmeaning⟩
      rw [hposition, List.length_cons]
      omega
  | @token _ kind lexeme text _ first _ hlongest hmeaning hposition _ ih =>
      rcases List.mem_cons.mp htoken with rfl | htoken
      · exact ⟨kind, [], lexeme, text, rfl, hposition, hlongest, hmeaning⟩
      · obtain ⟨kind', before, lexeme', behind, rfl, hposition', hlongest', hmeaning'⟩ := ih htoken
        refine ⟨kind', lexeme ++ before, lexeme', behind, by simp, ?_, hlongest', hmeaning'⟩
        rw [hposition', List.length_append]
        omega

theorem positions_pairwise (hreads : Reads offset text tokens rest) :
    (tokens.map Token.position).Pairwise (· < ·) := by
  induction hreads with
  | done => exact .nil
  | blank _ _ ih => exact ih
  | token hlongest _ hposition hmore ih =>
      refine List.pairwise_cons.mpr ⟨?_, ih⟩
      intro position hmem
      obtain ⟨token, htoken, rfl⟩ := List.mem_map.mp hmem
      obtain ⟨kind, before, lexeme, behind, -, hlater, -, -⟩ := hmore.exists_lexeme htoken
      have hpos := List.length_pos_iff.mpr hlongest.lexeme.ne_nil
      omega

end Reads

theorem StandsFor.ne_finish {meaning : Token.Kind × Bool} (hmeaning : StandsFor kind text meaning) :
    meaning.1 ≠ .finish := by
  rcases hmeaning with _ | _ | ⟨hword, -⟩ | -
  · exact nofun
  · exact nofun
  · simp only [words, List.mem_cons, Prod.mk.injEq, List.not_mem_nil, or_false] at hword
    rcases hword with ⟨-, rfl⟩ | ⟨-, rfl⟩ | ⟨-, rfl⟩ | ⟨-, rfl⟩ | ⟨-, rfl⟩ <;> exact nofun
  · exact nofun

/-- The tokens of a segment that is the longest at its place are read. -/
theorem reads_segment {offset : Nat} {tokens : List Token} (hlongest : IsLongest kind text rest)
    {behind : List Char} (hmore : Reads (offset + text.length) rest tokens behind) :
    Reads offset (text ++ rest)
      (((Segment.mk kind text).token? offset).toList ++ tokens) behind := by
  induction hlongest.lexeme with
  | blank _ hrun => exact .skip hrun hmore
  | number _ => exact .token hlongest .number rfl hmore
  | name _ => exact .token hlongest (standsFor_name_iff.mpr rfl) rfl hmore
  | symbol s => exact .token hlongest .symbol rfl hmore

theorem tokensFrom_cons (offset : Nat) (segment : Segment) (segments : List Segment) :
    tokensFrom offset (segment :: segments)
      = (segment.token? offset).toList ++ tokensFrom (offset + segment.text.length) segments := by
  rw [tokensFrom]
  cases segment.token? offset <;> rfl

/-- With fuel for each character, cutting a text goes on until nothing can be cut off. -/
theorem reads_segmentsWithin {fuel : Nat} (hfuel : text.length ≤ fuel) (offset : Nat)
    {segments : List Segment} (hsegments : segmentsWithin fuel text = (segments, rest)) :
    IsStuck rest ∧ text = segments.flatMap Segment.text ++ rest ∧
      ∃ read, Reads offset text read rest ∧ tokensFrom offset segments
        = read ++ [Token.endAt (offset + (segments.flatMap Segment.text).length)] := by
  induction fuel generalizing text offset segments with
  | zero =>
      have hnil : text = [] := List.length_eq_zero_iff.mp (Nat.le_zero.mp hfuel)
      subst hnil
      cases hsegments
      exact ⟨isStuck_nil, rfl, [], .done _ _, rfl⟩
  | succ fuel ih =>
      unfold segmentsWithin at hsegments
      split at hsegments
      · next hfront =>
          cases hsegments
          exact ⟨isStuck_of_front? hfront, rfl, [], .done _ _, rfl⟩
      · next kind length hfront =>
          obtain ⟨lexeme, more, rfl, rfl, hlongest⟩ := frontIs_of_front? hfront
          obtain ⟨others, behind, hcut⟩ :
              ∃ others behind, segmentsWithin fuel more = (others, behind) := ⟨_, _, rfl⟩
          rw [List.drop_left, List.take_left, hcut] at hsegments
          cases hsegments
          have hpos := List.length_pos_iff.mpr hlongest.lexeme.ne_nil
          rw [List.length_append] at hfuel
          obtain ⟨hstuck, rfl, read, hreads, htokens⟩ :=
            ih (by omega) (offset + lexeme.length) hcut
          refine ⟨hstuck, by simp, _, reads_segment hlongest hreads, ?_⟩
          rw [tokensFrom_cons, htokens]
          simp [Nat.add_assoc]

/-- Maximal munch either reads a whole source, or it gets stuck in front of a character. -/
theorem tokenize_cases (source : String) :
    ∃ read rest, Reads 0 source.toList read rest ∧ IsStuck rest ∧
      ((rest = [] ∧ tokenize source = .ok (read ++ [Token.endAt source.length])) ∨
        ∃ c behind front, rest = c :: behind ∧ source.toList = front ++ c :: behind ∧
          tokenize source = .error ⟨c, front.length⟩) := by
  obtain ⟨segments, rest, hcut⟩ :
      ∃ segments rest, Lexer.segments source.toList = (segments, rest) := ⟨_, _, rfl⟩
  obtain ⟨hstuck, htext, read, hreads, htokens⟩ :=
    reads_segmentsWithin (Nat.le_refl _) 0 hcut
  refine ⟨read, rest, hreads, hstuck, ?_⟩
  rcases rest with - | ⟨c, behind⟩
  · refine Or.inl ⟨rfl, ?_⟩
    rw [List.append_nil] at htext
    simp only [tokenize, hcut, htokens, ← htext, Nat.zero_add, String.length_toList]
  · exact Or.inr ⟨c, behind, _, rfl, htext, by simp only [tokenize, hcut]⟩

theorem tokenize_eq_ok_iff {source : String} {tokens : List Token} :
    tokenize source = .ok tokens ↔
      ∃ read, Reads 0 source.toList read [] ∧ tokens = read ++ [Token.endAt source.length] := by
  obtain ⟨read, rest, hreads, hstuck, ⟨rfl, htokens⟩ | ⟨c, behind, front, rfl, -, hfails⟩⟩ :=
    tokenize_cases source
  · rw [htokens, Except.ok.injEq]
    constructor
    · rintro rfl
      exact ⟨read, hreads, rfl⟩
    · rintro ⟨read', hreads', rfl⟩
      rw [(hreads.unique hstuck hreads' hstuck).1]
  · rw [hfails]
    constructor
    · intro hok
      cases hok
    · rintro ⟨read', hreads', -⟩
      cases (hreads.unique hstuck hreads' isStuck_nil).2

theorem tokenize_eq_error_iff {source : String} {e : LexicalError} :
    tokenize source = .error e ↔
      ∃ read front behind, source.toList = front ++ e.character :: behind ∧
        front.length = e.position ∧ Reads 0 source.toList read (e.character :: behind) ∧
        IsStuck (e.character :: behind) := by
  obtain ⟨read, rest, hreads, hstuck, ⟨rfl, htokens⟩ | ⟨c, behind, front, rfl, htext, hfails⟩⟩ :=
    tokenize_cases source
  · rw [htokens]
    constructor
    · intro hfails
      cases hfails
    · rintro ⟨read', front, behind, -, -, hreads', hstuck'⟩
      cases (hreads.unique hstuck hreads' hstuck').2
  · rw [hfails, Except.error.injEq]
    constructor
    · rintro rfl
      exact ⟨read, front, behind, htext, rfl, hreads, hstuck⟩
    · rintro ⟨read', front', behind', htext', hposition, hreads', hstuck'⟩
      obtain ⟨character, position⟩ := e
      cases (hreads.unique hstuck hreads' hstuck').2
      rw [htext, List.append_left_inj] at htext'
      subst htext'
      cases hposition
      rfl

/-- The positions of the tokens grow up to that of the end. -/
theorem Reads.positions_pairwise_concat {source : String} {read : List Token}
    (hreads : Reads 0 source.toList read rest) :
    ((read ++ [Token.endAt source.length]).map Token.position).Pairwise (· < ·) := by
  rw [List.map_append, List.pairwise_append]
  refine ⟨hreads.positions_pairwise, List.pairwise_singleton _ _, ?_⟩
  intro position hposition last hlast
  obtain ⟨token, htoken, rfl⟩ := List.mem_map.mp hposition
  obtain ⟨kind, before, lexeme, behind, htext, hstart, hlongest, -⟩ := hreads.exists_lexeme htoken
  have hlength := congrArg List.length htext
  simp only [List.length_append, String.length_toList] at hlength
  have hpos := List.length_pos_iff.mpr hlongest.lexeme.ne_nil
  simp only [List.map_cons, List.map_nil, List.mem_singleton, Token.endAt] at hlast
  omega

/-- The tokens of a source are those that maximal munch reads: the source is white space and
lexemes, each the longest at its place, with a token for each lexeme and a last one for the end.
Where a source has no tokens, maximal munch gets stuck in front of a character.  Reading always
comes to an end in one of these two ways. -/
theorem tokenize_maximal_munch (source : String) :
    (∃ read rest, Reads 0 source.toList read rest ∧ IsStuck rest) ∧
    (∀ tokens, tokenize source = .ok tokens ↔
      ∃ read, Reads 0 source.toList read [] ∧ tokens = read ++ [Token.endAt source.length]) ∧
    (∀ tokens, tokenize source = .ok tokens →
      (tokens.map Token.position).Pairwise (· < ·) ∧
      ∀ token ∈ tokens.dropLast, token.kind ≠ .finish ∧
        ∃ kind before lexeme behind, source.toList = before ++ lexeme ++ behind ∧
          token.position = before.length ∧ IsLongest kind lexeme behind ∧
          StandsFor kind lexeme (token.kind, token.asWord)) ∧
    (∀ e, tokenize source = .error e ↔
      ∃ read front behind, source.toList = front ++ e.character :: behind ∧
        front.length = e.position ∧ Reads 0 source.toList read (e.character :: behind) ∧
        IsStuck (e.character :: behind)) := by
  refine ⟨?_, fun tokens => tokenize_eq_ok_iff, ?_, fun e => tokenize_eq_error_iff⟩
  · obtain ⟨read, rest, hreads, hstuck, -⟩ := tokenize_cases source
    exact ⟨read, rest, hreads, hstuck⟩
  · intro tokens htokens
    obtain ⟨read, hreads, rfl⟩ := tokenize_eq_ok_iff.mp htokens
    refine ⟨hreads.positions_pairwise_concat, fun token htoken => ?_⟩
    rw [List.dropLast_concat] at htoken
    obtain ⟨kind, before, lexeme, behind, htext, hposition, hlongest, hmeaning⟩ :=
      hreads.exists_lexeme htoken
    rw [Nat.zero_add] at hposition
    exact ⟨hmeaning.ne_finish, kind, before, lexeme, behind, htext, hposition, hlongest, hmeaning⟩

end Lexer

end Stylesheet
