import Stylesheet.Expression.Lexer

/-!
# Lexemes

Which texts are numbers, dotted names and symbols, said without a scanner.  A lexeme is the longest
one at the front of a text exactly if it does not go on in the text behind it, and one or two
characters tell whether it does.
-/

namespace Stylesheet

namespace Lexer

open Text

variable {kind kind' : SegmentClass} {text rest : List Char} {c : Char}

def IsDigits (text : List Char) : Prop :=
  text ≠ [] ∧ ∀ c ∈ text, isDigit c = true

/-- Numbers: digits, or a point with digits behind it and perhaps in front of it. -/
inductive IsNumber : List Char → Prop where
  | whole {digits : List Char} (hdigits : IsDigits digits) : IsNumber digits
  | fraction {whole digits : List Char} (hwhole : ∀ c ∈ whole, isDigit c = true)
      (hdigits : IsDigits digits) : IsNumber (whole ++ '.' :: digits)

/-- Parts of names: a letter or underscore, and then letters, digits and underscores. -/
def IsNamePart (text : List Char) : Prop :=
  ∃ first more, text = first :: more ∧ isNameStart first = true ∧ ∀ c ∈ more, isNameRest c = true

/-- Dotted names: parts with single dots between them. -/
inductive IsName : List Char → Prop where
  | part {part : List Char} (hpart : IsNamePart part) : IsName part
  | dotted {part name : List Char} (hpart : IsNamePart part) (hname : IsName name) :
      IsName (part ++ '.' :: name)

/-- The texts of each class of segments. -/
inductive Lexeme : SegmentClass → List Char → Prop where
  | blank {run : List Char} (hne : run ≠ []) (hrun : ∀ c ∈ run, isBlank c = true) :
      Lexeme .blank run
  | number {text : List Char} (htext : IsNumber text) : Lexeme .number text
  | name {text : List Char} (htext : IsName text) : Lexeme .name text
  | symbol (s : Token.Symbol) : Lexeme (.symbol s) s.text.toList

/-- A lexeme in front of a text, of which no lexeme takes more. -/
structure IsLongest (kind : SegmentClass) (text rest : List Char) : Prop where
  lexeme : Lexeme kind text
  longest {kind' : SegmentClass} {other : List Char} : Lexeme kind' other →
    other <+: text ++ rest → other.length ≤ text.length

/-- Whether a lexeme goes on in the text behind it. -/
def GoesOn (kind : SegmentClass) (text rest : List Char) : Prop :=
  match kind with
  | .blank => ∃ c ∈ rest.head?, isBlank c = true
  | .number => (∃ c ∈ rest.head?, isDigit c = true) ∨
      '.' ∉ text ∧ ∃ c more, rest = '.' :: c :: more ∧ isDigit c = true
  | .name => (∃ c ∈ rest.head?, isNameRest c = true) ∨
      ∃ c more, rest = '.' :: c :: more ∧ isNameStart c = true
  | .symbol s => s ∈ [Token.Symbol.less, .greater, .not] ∧ rest.head? = some '='

/-! ## First characters -/

/-- Whether the texts of a class can start with a character. -/
def startsWith : SegmentClass → Char → Bool
  | .blank, c => isBlank c
  | .number, c => isDigit c || c == '.'
  | .name, c => isNameStart c
  | .symbol s, c => s.text.toList.head? == some c

theorem Lexeme.exists_cons (hlexeme : Lexeme kind text) :
    ∃ first more, text = first :: more ∧ startsWith kind first = true := by
  induction hlexeme with
  | @blank run hne hrun =>
      obtain ⟨first, more, rfl⟩ := List.exists_cons_of_ne_nil hne
      exact ⟨first, more, rfl, hrun first List.mem_cons_self⟩
  | number htext =>
      induction htext with
      | whole hdigits =>
          obtain ⟨first, more, rfl⟩ := List.exists_cons_of_ne_nil hdigits.1
          exact ⟨first, more, rfl, by simp [startsWith, hdigits.2]⟩
      | @fraction whole digits hwhole _ =>
          rcases whole with - | ⟨first, more⟩
          · exact ⟨'.', digits, rfl, by simp [startsWith]⟩
          · exact ⟨first, _, rfl, by simp [startsWith, hwhole]⟩
  | name htext =>
      induction htext with
      | part hpart =>
          obtain ⟨first, more, rfl, hfirst, -⟩ := hpart
          exact ⟨first, more, rfl, hfirst⟩
      | dotted hpart _ _ =>
          obtain ⟨first, more, rfl, hfirst, -⟩ := hpart
          exact ⟨first, _, rfl, hfirst⟩
  | symbol s => cases s <;> exact ⟨_, _, rfl, rfl⟩

theorem Lexeme.ne_nil (hlexeme : Lexeme kind text) : text ≠ [] := by
  obtain ⟨first, more, rfl, -⟩ := hlexeme.exists_cons
  exact List.cons_ne_nil first more

theorem isAlpha_iff :
    c.isAlpha = true ↔ 65 ≤ c.toNat ∧ c.toNat ≤ 90 ∨ 97 ≤ c.toNat ∧ c.toNat ≤ 122 := by
  have halpha : c.isAlpha = (c.isUpper || c.isLower) := rfl
  have hupper : c.isUpper = decide (c.val ≥ 65 ∧ c.val ≤ 90) := rfl
  have hlower : c.isLower = (decide (c.val ≥ 97) && decide (c.val ≤ 122)) := rfl
  rw [halpha, hupper, hlower]
  simp only [Bool.or_eq_true, Bool.and_eq_true, decide_eq_true_eq]
  rfl

theorem toNat_of_isNameStart (hc : isNameStart c = true) :
    65 ≤ c.toNat ∧ c.toNat ≤ 90 ∨ 97 ≤ c.toNat ∧ c.toNat ≤ 122 ∨ c.toNat = 95 := by
  simp only [isNameStart, Bool.or_eq_true, isAlpha_iff, beq_iff_eq] at hc
  rcases hc with (hupper | hlower) | rfl
  · exact Or.inl hupper
  · exact Or.inr (Or.inl hlower)
  · exact Or.inr (Or.inr rfl)

theorem isNameRest_of_isNameStart (hc : isNameStart c = true) : isNameRest c = true := by
  simp only [isNameStart, isNameRest, Char.isAlphanum, Bool.or_eq_true] at hc ⊢
  rcases hc with halpha | hunderscore
  · exact Or.inl (Or.inl halpha)
  · exact Or.inr hunderscore

/-- A digit is counted from the zero of its script. -/
theorem exists_zero_of_isDigit (hc : isDigit c = true) :
    ∃ start ∈ zeros, start ≤ c.toNat ∧ c.toNat < start + 10 := by
  unfold isDigit digitValue? at hc
  by_cases hascii : c.toNat < 0x80
  · rw [if_pos hascii] at hc
    by_cases hrange : '0' ≤ c ∧ c ≤ '9'
    · have hlow : 48 ≤ c.toNat := hrange.1
      have hhigh : c.toNat ≤ 57 := hrange.2
      exact ⟨0x30, List.mem_cons_self, hlow, Nat.lt_succ_of_le hhigh⟩
    · simp [hrange] at hc
  · rw [if_neg hascii, Option.isSome_map, List.find?_isSome] at hc
    simpa using hc

/-- The digits of every script lie apart from white space. -/
theorem zeros_apart_blankRanges :
    ∀ start ∈ zeros, ∀ range ∈ blankRanges, start + 10 ≤ range.1 ∨ range.2 < start := by
  decide

theorem isDigit_eq_false_of_isBlank (hc : isBlank c = true) : isDigit c = false := by
  rw [Bool.eq_false_iff]
  intro hdigit
  obtain ⟨start, hstart, hlow, hhigh⟩ := exists_zero_of_isDigit hdigit
  obtain ⟨range, hrange, hbounds⟩ := List.any_eq_true.mp hc
  simp only [Bool.and_eq_true, decide_eq_true_eq] at hbounds
  have hapart := zeros_apart_blankRanges start hstart range hrange
  omega

theorem isBlank_eq_false_of_isNameStart (hc : isNameStart c = true) : isBlank c = false := by
  have hletter := toNat_of_isNameStart hc
  simp only [isBlank, blankRanges, List.any_cons, List.any_nil, Bool.or_false,
    Bool.or_eq_false_iff, Bool.and_eq_false_iff, decide_eq_false_iff_not]
  omega

theorem isDigit_eq_false_of_isNameStart (hc : isNameStart c = true) : isDigit c = false := by
  have hletter := toNat_of_isNameStart hc
  have hascii : c.toNat < 0x80 := by omega
  have hrange : ¬ ('0' ≤ c ∧ c ≤ '9') := by
    rintro ⟨-, hhigh⟩
    have hhigh : c.toNat ≤ 57 := hhigh
    omega
  simp [isDigit, digitValue?, hascii, hrange]

/-- Two classes are the same, or both of them are symbols. -/
def SegmentClass.Alike : SegmentClass → SegmentClass → Prop
  | .symbol _, .symbol _ => True
  | kind, kind' => kind = kind'

theorem startsWith_symbol {s : Token.Symbol} (hc : startsWith (.symbol s) c = true) :
    startsWith .blank c = false ∧ startsWith .number c = false ∧ startsWith .name c = false := by
  have hhead : s.text.toList.head? = some c := by simpa [startsWith] using hc
  cases s <;> cases hhead <;> decide

/-- The first character of a text tells its class. -/
theorem alike_of_startsWith (hkind : startsWith kind c = true)
    (hkind' : startsWith kind' c = true) : kind.Alike kind' := by
  have hblank : startsWith .blank c = true → startsWith .number c = false := by
    intro hc
    have hpoint : c ≠ '.' := by
      rintro rfl
      cases hc
    simp [startsWith, isDigit_eq_false_of_isBlank hc, hpoint]
  have hname : startsWith .name c = true →
      startsWith .blank c = false ∧ startsWith .number c = false := by
    intro hc
    have hpoint : c ≠ '.' := by
      rintro rfl
      cases hc
    exact ⟨isBlank_eq_false_of_isNameStart hc,
      by simp [startsWith, isDigit_eq_false_of_isNameStart hc, hpoint]⟩
  cases kind <;> cases kind' <;> grind [SegmentClass.Alike, startsWith_symbol]

theorem Lexeme.alike {more more' : List Char} (hlexeme : Lexeme kind (c :: more))
    (hlexeme' : Lexeme kind' (c :: more')) : kind.Alike kind' := by
  obtain ⟨first, _, hcons, hfirst⟩ := hlexeme.exists_cons
  obtain ⟨first', _, hcons', hfirst'⟩ := hlexeme'.exists_cons
  cases hcons
  cases hcons'
  exact alike_of_startsWith hfirst hfirst'

/-! ## Longer lexemes -/

theorem isDigit_point : isDigit '.' = false := by
  decide

theorem IsDigits.point_not_mem (hdigits : ∀ c ∈ text, isDigit c = true) : '.' ∉ text := by
  intro hmem
  simpa [isDigit_point] using hdigits '.' hmem

/-- What a longer number has behind a shorter text. -/
theorem IsNumber.goesOn {more : List Char} (hnumber : IsNumber (text ++ c :: more)) :
    GoesOn .number text (c :: more) := by
  generalize hwhole : text ++ c :: more = whole at hnumber
  induction hnumber with
  | whole hdigits =>
      subst hwhole
      exact Or.inl ⟨c, rfl, hdigits.2 c (by simp)⟩
  | @fraction front digits hfront hdigits =>
      have hpoint : front = text → c :: more = '.' :: digits →
          GoesOn .number text (c :: more) := by
        rintro rfl hbehind
        obtain ⟨digit, others, rfl⟩ := List.exists_cons_of_ne_nil hdigits.1
        exact Or.inr ⟨IsDigits.point_not_mem hfront, digit, others, hbehind,
          hdigits.2 digit List.mem_cons_self⟩
      rcases List.append_eq_append_iff.mp hwhole with
        ⟨extra, hfrontEq, hbehind⟩ | ⟨extra, htext, hbehind⟩
      · rcases extra with - | ⟨first, others⟩
        · exact hpoint (by simpa using hfrontEq) hbehind
        · cases hbehind
          exact Or.inl ⟨c, rfl, hfront c (by simp [hfrontEq])⟩
      · rcases extra with - | ⟨first, others⟩
        · exact hpoint (by simpa using htext.symm) hbehind.symm
        · cases hbehind
          exact Or.inl ⟨c, rfl, hdigits.2 c (by simp)⟩

theorem IsName.exists_cons (hname : IsName text) :
    ∃ first more, text = first :: more ∧ isNameStart first = true :=
  (Lexeme.name hname).exists_cons

/-- What a longer name has behind a shorter text. -/
theorem IsName.goesOn {more : List Char} (hname : IsName (text ++ c :: more)) (hne : text ≠ []) :
    GoesOn .name text (c :: more) := by
  generalize hwhole : text ++ c :: more = whole at hname
  induction hname generalizing text with
  | part hpart =>
      obtain ⟨first, others, rfl, -, hothers⟩ := hpart
      obtain ⟨head, tail, rfl⟩ := List.exists_cons_of_ne_nil hne
      cases hwhole
      exact Or.inl ⟨c, rfl, hothers c (by simp)⟩
  | @dotted part name hpart hname ih =>
      obtain ⟨start, behind, hstart, hletter⟩ := hname.exists_cons
      have hpoint : c :: more = '.' :: name → GoesOn .name text (c :: more) := by
        intro hbehind
        exact Or.inr ⟨start, behind, by rw [hbehind, hstart], hletter⟩
      rcases List.append_eq_append_iff.mp hwhole with
        ⟨extra, hpartEq, hbehind⟩ | ⟨extra, htext, hbehind⟩
      · rcases extra with - | ⟨first, others⟩
        · exact hpoint hbehind
        · cases hbehind
          obtain ⟨head, tail, hcons, -, htail⟩ := hpart
          obtain ⟨head', tail', rfl⟩ := List.exists_cons_of_ne_nil hne
          rw [hcons] at hpartEq
          cases hpartEq
          exact Or.inl ⟨c, rfl, htail c (by simp)⟩
      · rcases extra with - | ⟨first, others⟩
        · exact hpoint hbehind.symm
        · cases hbehind
          by_cases hothers : others = []
          · subst hothers
            cases hstart
            exact Or.inl ⟨c, rfl, isNameRest_of_isNameStart hletter⟩
          · exact (ih hothers rfl : GoesOn .name others (c :: more))

/-- The symbols of one character that others start with. -/
theorem symbol_goesOn {s s' : Token.Symbol} {more : List Char}
    (htext : s.text.toList ++ c :: more = s'.text.toList) :
    GoesOn (.symbol s) text (c :: more) := by
  cases s' <;> cases s <;> simp_all [Token.Symbol.text, GoesOn]

/-- A lexeme that is the front of another one goes on behind its end. -/
theorem Lexeme.goesOn {more : List Char} (hlexeme : Lexeme kind text)
    (hlonger : Lexeme kind' (text ++ c :: more)) : GoesOn kind text (c :: more) := by
  obtain ⟨first, others, rfl⟩ := List.exists_cons_of_ne_nil hlexeme.ne_nil
  have halike := hlexeme.alike hlonger
  generalize hwhole : first :: others ++ c :: more = whole at hlonger
  induction hlonger with
  | blank hne hrun =>
      cases kind <;> cases halike
      subst hwhole
      exact ⟨c, rfl, hrun c (by simp)⟩
  | number hnumber =>
      cases kind <;> cases halike
      subst hwhole
      exact hnumber.goesOn
  | name hname =>
      cases kind <;> cases halike
      subst hwhole
      exact hname.goesOn (List.cons_ne_nil _ _)
  | symbol s' =>
      generalize hshort : first :: others = short at hlexeme hwhole
      induction hlexeme with
      | symbol s => exact symbol_goesOn hwhole
      | blank _ _ => cases halike
      | number _ => cases halike
      | name _ => cases halike

theorem IsDigits.append_singleton (hdigits : IsDigits text) (hc : isDigit c = true) :
    IsDigits (text ++ [c]) := by
  refine ⟨by simp, ?_⟩
  simp only [List.forall_mem_append, List.forall_mem_singleton]
  exact ⟨hdigits.2, hc⟩

theorem IsNamePart.append_singleton (hpart : IsNamePart text) (hc : isNameRest c = true) :
    IsNamePart (text ++ [c]) := by
  obtain ⟨first, more, rfl, hfirst, hmore⟩ := hpart
  refine ⟨first, more ++ [c], rfl, hfirst, ?_⟩
  simp only [List.forall_mem_append, List.forall_mem_singleton]
  exact ⟨hmore, hc⟩

theorem IsNumber.append_digit (hnumber : IsNumber text) (hc : isDigit c = true) :
    IsNumber (text ++ [c]) := by
  induction hnumber with
  | whole hdigits => exact .whole (hdigits.append_singleton hc)
  | fraction hwhole hdigits =>
      simpa using IsNumber.fraction hwhole (hdigits.append_singleton hc)

/-- A number without a point can have one, with a digit behind it. -/
theorem IsNumber.append_point (hnumber : IsNumber text) (hpoint : '.' ∉ text)
    (hc : isDigit c = true) : IsNumber (text ++ ['.', c]) := by
  induction hnumber with
  | whole hdigits => exact .fraction hdigits.2 ⟨by simp, by simpa using hc⟩
  | fraction _ _ => simp at hpoint

theorem IsName.append_singleton (hname : IsName text) (hc : isNameRest c = true) :
    IsName (text ++ [c]) := by
  induction hname with
  | part hpart => exact .part (hpart.append_singleton hc)
  | dotted hpart _ ih => simpa using IsName.dotted hpart ih

theorem IsName.append_point (hname : IsName text) (hc : isNameStart c = true) :
    IsName (text ++ ['.', c]) := by
  have hsingle : IsName [c] := .part ⟨c, [], rfl, hc, by simp⟩
  induction hname with
  | part hpart => exact .dotted hpart hsingle
  | dotted hpart _ ih => simpa using IsName.dotted hpart ih

/-- The symbols that can be made longer. -/
theorem exists_symbol_append_equals {s : Token.Symbol}
    (hs : s ∈ [Token.Symbol.less, .greater, .not]) :
    ∃ s' : Token.Symbol, s'.text.toList = s.text.toList ++ ['='] := by
  simp only [List.mem_cons, List.not_mem_nil, or_false] at hs
  rcases hs with rfl | rfl | rfl
  · exact ⟨.lessEqual, rfl⟩
  · exact ⟨.greaterEqual, rfl⟩
  · exact ⟨.notEqual, rfl⟩

/-- A lexeme that goes on is the front of a longer one. -/
theorem Lexeme.exists_longer (hlexeme : Lexeme kind text) (hgoes : GoesOn kind text rest) :
    ∃ kind' extra, extra ≠ [] ∧ extra <+: rest ∧ Lexeme kind' (text ++ extra) := by
  have hhead {c : Char} (hc : c ∈ rest.head?) : [c] <+: rest := by
    obtain ⟨more, rfl⟩ := List.head?_eq_some_iff.mp hc
    exact ⟨more, rfl⟩
  induction hlexeme with
  | blank hne hrun =>
      obtain ⟨c, hc, hblank⟩ := hgoes
      refine ⟨.blank, [c], by simp, hhead hc, .blank (by simp) ?_⟩
      simp only [List.forall_mem_append, List.forall_mem_singleton]
      exact ⟨hrun, hblank⟩
  | number hnumber =>
      rcases hgoes with ⟨c, hc, hdigit⟩ | ⟨hpoint, c, more, rfl, hdigit⟩
      · exact ⟨.number, [c], by simp, hhead hc, .number (hnumber.append_digit hdigit)⟩
      · exact ⟨.number, ['.', c], by simp, ⟨more, rfl⟩,
          .number (hnumber.append_point hpoint hdigit)⟩
  | name hname =>
      rcases hgoes with ⟨c, hc, hletter⟩ | ⟨c, more, rfl, hletter⟩
      · exact ⟨.name, [c], by simp, hhead hc, .name (hname.append_singleton hletter)⟩
      · exact ⟨.name, ['.', c], by simp, ⟨more, rfl⟩, .name (hname.append_point hletter)⟩
  | symbol s =>
      obtain ⟨hs, hequals⟩ := hgoes
      obtain ⟨s', hs'⟩ := exists_symbol_append_equals hs
      exact ⟨.symbol s', ['='], by simp, hhead hequals, hs' ▸ .symbol s'⟩

theorem GoesOn.append {more : List Char} (hgoes : GoesOn kind text rest) :
    GoesOn kind text (rest ++ more) := by
  have hhead {c : Char} (hc : c ∈ rest.head?) : c ∈ (rest ++ more).head? := by
    obtain ⟨behind, rfl⟩ := List.head?_eq_some_iff.mp hc
    rfl
  cases kind with
  | blank =>
      obtain ⟨c, hc, hblank⟩ := hgoes
      exact ⟨c, hhead hc, hblank⟩
  | number =>
      rcases hgoes with ⟨c, hc, hdigit⟩ | ⟨hpoint, c, behind, rfl, hdigit⟩
      · exact Or.inl ⟨c, hhead hc, hdigit⟩
      · exact Or.inr ⟨hpoint, c, behind ++ more, rfl, hdigit⟩
  | name =>
      rcases hgoes with ⟨c, hc, hletter⟩ | ⟨c, behind, rfl, hletter⟩
      · exact Or.inl ⟨c, hhead hc, hletter⟩
      · exact Or.inr ⟨c, behind ++ more, rfl, hletter⟩
  | symbol s => exact ⟨hgoes.1, hhead hgoes.2⟩

/-- A lexeme is the longest at its place exactly if it does not go on. -/
theorem isLongest_iff : IsLongest kind text rest ↔ Lexeme kind text ∧ ¬ GoesOn kind text rest := by
  constructor
  · intro hlongest
    refine ⟨hlongest.lexeme, fun hgoes => ?_⟩
    obtain ⟨kind', extra, hne, hextra, hlonger⟩ := hlongest.lexeme.exists_longer hgoes
    have hlength := hlongest.longest hlonger ((List.prefix_append_right_inj text).mpr hextra)
    have hpos := List.length_pos_iff.mpr hne
    rw [List.length_append] at hlength
    omega
  · rintro ⟨hlexeme, hstops⟩
    refine ⟨hlexeme, fun {kind' other} hother hfront => Nat.le_of_not_lt fun hlong => ?_⟩
    obtain ⟨extra, rfl⟩ := List.prefix_of_prefix_length_le (List.prefix_append text rest) hfront
      (Nat.le_of_lt hlong)
    rcases extra with - | ⟨c, more⟩
    · simp at hlong
    · obtain ⟨behind, rfl⟩ := (List.prefix_append_right_inj text).mp hfront
      exact hstops (hlexeme.goesOn hother).append

end Lexer

end Stylesheet
