import Stylesheet.Proofs.Lexer.Munch

/-!
# Boundaries between lexemes

What is read in front of a place stays the same when the text behind the place is replaced, as long
as no lexeme goes on in the new text.  White space and parentheses end every lexeme in front of
them.
-/

namespace Stylesheet

namespace Lexer

open Text

variable {kind : SegmentClass} {text rest front back back' : List Char} {c : Char} {offset : Nat}
  {read tokens : List Token}

/-- Whatever goes on in one text goes on in another, white space apart. -/
def GoesOnLess (rest rest' : List Char) : Prop :=
  ∀ kind text, kind ≠ SegmentClass.blank → GoesOn kind text rest → GoesOn kind text rest'

/-- No lexeme goes on in a text, white space apart. -/
def EndsLexemes (rest : List Char) : Prop :=
  ∀ kind text, kind ≠ SegmentClass.blank → ¬ GoesOn kind text rest

theorem EndsLexemes.goesOnLess (hends : EndsLexemes rest) (rest' : List Char) :
    GoesOnLess rest rest' :=
  fun kind text hkind hgoes => absurd hgoes (hends kind text hkind)

theorem endsLexemes_nil : EndsLexemes [] := by
  intro kind text hkind hgoes
  cases kind <;> simp [GoesOn] at hkind hgoes

theorem endsLexemes_cons (hname : isNameRest c = false) (hdigit : isDigit c = false)
    (hsign : c ≠ '.' ∧ c ≠ '=') (more : List Char) : EndsLexemes (c :: more) := by
  intro kind text hkind hgoes
  cases kind <;> simp [GoesOn, hname, hdigit, hsign] at hkind hgoes

theorem isNameRest_eq_false_of_isBlank (hc : isBlank c = true) : isNameRest c = false := by
  rw [Bool.eq_false_iff]
  intro hname
  have hrange : 48 ≤ c.toNat ∧ c.toNat ≤ 57 ∨ 65 ≤ c.toNat ∧ c.toNat ≤ 122 := by
    simp only [isNameRest, Char.isAlphanum, Char.isDigit, Bool.or_eq_true, Bool.and_eq_true,
      decide_eq_true_eq, beq_iff_eq, UInt32.le_iff_toNat_le] at hname
    rcases hname with (halpha | hdigit) | rfl
    · have hletter := toNat_of_isNameStart (by simp [isNameStart, halpha] : isNameStart c = true)
      omega
    · exact Or.inl hdigit
    · exact Or.inr (by decide)
  simp only [isBlank, blankRanges, List.any_cons, List.any_nil, Bool.or_false, Bool.or_eq_true,
    Bool.and_eq_true, decide_eq_true_eq] at hc
  omega

theorem endsLexemes_blank (hc : isBlank c = true) (more : List Char) :
    EndsLexemes (c :: more) := by
  refine endsLexemes_cons (isNameRest_eq_false_of_isBlank hc) (isDigit_eq_false_of_isBlank hc)
    ⟨?_, ?_⟩ more
  · rintro rfl
    cases hc
  · rintro rfl
    cases hc

theorem endsLexemes_of_mem (hc : c ∈ ['(', ')', ',']) (more : List Char) :
    EndsLexemes (c :: more) := by
  simp only [List.mem_cons, List.not_mem_nil, or_false] at hc
  rcases hc with rfl | rfl | rfl
  · exact endsLexemes_cons (by decide) (by decide) (by decide) more
  · exact endsLexemes_cons (by decide) (by decide) (by decide) more
  · exact endsLexemes_cons (by decide) (by decide) (by decide) more

theorem isLongest_of_endsLexemes (hlexeme : Lexeme kind text) (hkind : kind ≠ .blank)
    (hends : EndsLexemes rest) : IsLongest kind text rest :=
  isLongest_iff.mpr ⟨hlexeme, hends kind text hkind⟩

/-! ## Replacing the text behind a place -/

theorem not_lexeme_point : ¬ Lexeme kind ['.'] := by
  generalize hpoint : ['.'] = text
  intro hlexeme
  induction hlexeme with
  | blank _ hrun =>
      subst hpoint
      have hblank := hrun '.' List.mem_cons_self
      cases hblank
  | number hnumber =>
      induction hnumber with
      | whole hdigits =>
          subst hpoint
          have hdigit := hdigits.2 '.' List.mem_cons_self
          cases hdigit
      | @fraction whole digits hwhole hdigits =>
          have hlength := congrArg List.length hpoint
          have hpos := List.length_pos_iff.mpr hdigits.1
          simp at hlength
          omega
  | name hname =>
      subst hpoint
      obtain ⟨first, more, hcons, hfirst⟩ := hname.exists_cons
      cases hcons
      cases hfirst
  | symbol s => cases s <;> cases hpoint

namespace Reads

theorem length_le (hreads : Reads offset text tokens rest) : rest.length ≤ text.length := by
  obtain ⟨front, rfl⟩ := hreads.exists_append
  simp

/-- A point alone is not read. -/
theorem not_point : ¬ Reads offset ('.' :: rest) tokens rest := by
  intro hreads
  rcases hreads.step with ⟨-, hnone⟩ | ⟨c, more, hcons, hblank, -⟩ |
    ⟨kind, lexeme, more, token, others, hlexeme, -, hlongest, -, -, hmore⟩
  · have hlength := congrArg List.length hnone
    simp at hlength
  · cases hcons
    cases hblank
  · obtain ⟨first, behind, rfl⟩ := List.exists_cons_of_ne_nil hlongest.lexeme.ne_nil
    have hlength := congrArg List.length hlexeme
    have hle := hmore.length_le
    simp only [List.cons_append, List.length_cons, List.length_append] at hlength
    obtain rfl : behind = [] := List.length_eq_zero_iff.mp (by omega)
    cases hlexeme
    exact not_lexeme_point hlongest.lexeme

end Reads

/-- A character that is no point tells alone whether a lexeme goes on, and a point does so together
with the next character. -/
theorem goesOn_cons_congr {more more' : List Char}
    (hpoint : c = '.' → more.head? = more'.head?) (hgoes : GoesOn kind text (c :: more)) :
    GoesOn kind text (c :: more') := by
  have hsecond {p : Char → Bool} (hp : ∃ d others, c :: more = '.' :: d :: others ∧ p d = true) :
      ∃ d others, c :: more' = '.' :: d :: others ∧ p d = true := by
    obtain ⟨d, others, hcons, hd⟩ := hp
    cases hcons
    obtain ⟨others', rfl⟩ := List.head?_eq_some_iff.mp (hpoint rfl).symm
    exact ⟨d, others', rfl, hd⟩
  cases kind with
  | blank => exact hgoes
  | number =>
      rcases hgoes with hdigit | ⟨hwhole, hfraction⟩
      · exact Or.inl hdigit
      · exact Or.inr ⟨hwhole, hsecond hfraction⟩
  | name =>
      rcases hgoes with hletter | hdotted
      · exact Or.inl hletter
      · exact Or.inr (hsecond hdotted)
  | symbol s => exact hgoes

namespace Reads

/-- The induction is on what is read in front of the place. -/
theorem replace_rest (hreads : Reads offset text read back) (htext : text = front ++ back)
    (hless : GoesOnLess back' back) : Reads offset (front ++ back') read back' := by
  induction hreads generalizing front with
  | done offset rest =>
      obtain rfl : front = [] := by simpa using htext
      exact .done offset back'
  | @blank offset c text rest tokens hblank hmore ih =>
      rcases front with - | ⟨first, front⟩
      · have hle := hmore.length_le
        have hlength := congrArg List.length htext
        simp at hlength
        omega
      · cases htext
        exact .blank hblank (ih rfl hless)
  | @token offset kind lexeme text rest token tokens hlongest hmeaning hposition hmore ih =>
      obtain ⟨middle, rfl⟩ := hmore.exists_append
      obtain rfl : lexeme ++ middle = front := by simpa [← List.append_assoc] using htext
      rw [List.append_assoc]
      refine .token (isLongest_iff.mpr ⟨hlongest.lexeme, fun hgoes => ?_⟩) hmeaning hposition
        (ih rfl hless)
      apply (isLongest_iff.mp hlongest).2
      rcases middle with - | ⟨c, - | ⟨d, middle⟩⟩
      · exact hless kind lexeme hmeaning.ne_blank hgoes
      · refine goesOn_cons_congr ?_ hgoes
        rintro rfl
        exact absurd hmore not_point
      · refine goesOn_cons_congr ?_ hgoes
        intro _
        rfl

theorem append (hfront : Reads offset (front ++ back) read back)
    (hback : Reads (offset + front.length) back tokens rest) :
    Reads offset (front ++ back) (read ++ tokens) rest := by
  generalize htext : front ++ back = text at hfront
  induction hfront generalizing front with
  | done offset rest =>
      obtain rfl : front = [] := by simpa using htext
      exact hback
  | blank hblank hmore ih =>
      rcases front with - | ⟨first, front⟩
      · have hle := hmore.length_le
        have hlength := congrArg List.length htext
        simp at hlength
        omega
      · cases htext
        refine .blank hblank (ih ?_ rfl)
        rwa [List.length_cons, Nat.add_comm front.length, ← Nat.add_assoc] at hback
  | @token offset kind lexeme text rest token tokens hlongest hmeaning hposition hmore ih =>
      obtain ⟨middle, rfl⟩ := hmore.exists_append
      obtain rfl : front = lexeme ++ middle := by simpa [← List.append_assoc] using htext
      refine .token hlongest hmeaning hposition (ih ?_ rfl)
      rwa [List.length_append, ← Nat.add_assoc] at hback

/-- The same is read wherever a text stands. -/
theorem shift (hreads : Reads offset text tokens rest) (offset' : Nat) :
    ∃ tokens', Reads offset' text tokens' rest ∧
      tokens'.map Token.kind = tokens.map Token.kind := by
  induction hreads generalizing offset' with
  | done _ rest => exact ⟨[], .done offset' rest, rfl⟩
  | blank hblank _ ih =>
      obtain ⟨tokens', hreads', hkinds⟩ := ih (offset' + 1)
      exact ⟨tokens', .blank hblank hreads', hkinds⟩
  | @token _ _ lexeme _ _ token _ hlongest hmeaning _ _ ih =>
      obtain ⟨tokens', hreads', hkinds⟩ := ih (offset' + lexeme.length)
      exact ⟨{ token with position := offset' } :: tokens',
        .token hlongest hmeaning rfl hreads', congrArg (token.kind :: ·) hkinds⟩

theorem symbol {s : Token.Symbol} (hgoes : ¬ GoesOn (.symbol s) s.text.toList text)
    (hmore : Reads (offset + s.text.toList.length) text tokens rest) :
    Reads offset (s.text.toList ++ text) (⟨.symbol s, offset, false⟩ :: tokens) rest :=
  .token (isLongest_iff.mpr ⟨.symbol s, hgoes⟩) .symbol rfl hmore

/-- Reading goes on until it gets stuck. -/
theorem exists_isStuck (offset : Nat) (text : List Char) :
    ∃ tokens rest, Reads offset text tokens rest ∧ IsStuck rest := by
  obtain ⟨hstuck, -, tokens, hreads, -⟩ :=
    reads_segmentsWithin (Nat.le_refl text.length) offset
      (rfl : segmentsWithin text.length text = _)
  exact ⟨tokens, _, hreads, hstuck⟩

/-- What is read of a whole text is read in front of any place that is come by. -/
theorem exists_rest (hfront : Reads offset (front ++ back) read back)
    (hall : Reads offset (front ++ back) tokens []) :
    ∃ others, tokens = read ++ others ∧ Reads (offset + front.length) back others [] := by
  obtain ⟨others, rest, hback, hstuck⟩ := exists_isStuck (offset + front.length) back
  obtain ⟨rfl, rfl⟩ := (hfront.append hback).unique hstuck hall isStuck_nil
  exact ⟨others, rfl, hback⟩

/-- A piece of a text between two places can be replaced by one that is read as the same kinds of
tokens, when both pieces have the same tokens in front of them. -/
theorem replace {old new : List Char} {readOld readNew : List Token}
    (hplace : Reads 0 (front ++ (old ++ back)) read (old ++ back))
    (hplace' : Reads 0 (front ++ (new ++ back)) read (new ++ back))
    (hold : Reads front.length (old ++ back) readOld back)
    (hnew : Reads front.length (new ++ back) readNew back)
    (hkinds : readNew.map Token.kind = readOld.map Token.kind)
    (hall : Reads 0 (front ++ (old ++ back)) tokens []) :
    ∃ tokens', Reads 0 (front ++ (new ++ back)) tokens' [] ∧
      tokens'.map Token.kind = tokens.map Token.kind := by
  obtain ⟨others, rfl, hothers⟩ := hplace.exists_rest hall
  rw [Nat.zero_add] at hothers
  obtain ⟨behind, rfl, hbehind⟩ := hold.exists_rest hothers
  obtain ⟨behind', hbehind', hbehindKinds⟩ := hbehind.shift (front.length + new.length)
  refine ⟨read ++ (readNew ++ behind'), hplace'.append ?_, ?_⟩
  · rw [Nat.zero_add]
    exact hnew.append hbehind'
  · simp [hkinds, hbehindKinds]

end Reads

end Lexer

end Stylesheet
