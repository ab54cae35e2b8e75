import Mathlib.Data.List.TakeWhile
import Stylesheet.Proofs.Lexer.Lexeme

/-!
# The front of a text

What is found at the front of a text is the longest lexeme that stands there, and where nothing is
found, none stands there.
-/

namespace Stylesheet

namespace Lexer

open Text

variable {kind : SegmentClass} {text rest : List Char} {c : Char}

/-- No lexeme stands at the front of a text. -/
def IsStuck (text : List Char) : Prop :=
  ∀ (kind : SegmentClass) (lexeme : List Char), Lexeme kind lexeme → ¬ lexeme <+: text

theorem Lexeme.not_isStuck (hlexeme : Lexeme kind text) (rest : List Char) :
    ¬ IsStuck (text ++ rest) :=
  fun hstuck => hstuck kind text hlexeme (List.prefix_append text rest)

theorem isStuck_nil : IsStuck [] :=
  fun _ _ hlexeme hprefix => hlexeme.ne_nil (List.prefix_nil.mp hprefix)

theorem eq_false_of_mem_head?_dropWhile {p : Char → Bool}
    (hc : c ∈ (text.dropWhile p).head?) : p c = false := by
  have hhead := List.head?_dropWhile_not p text
  rw [Option.mem_def.mp hc] at hhead
  simpa using hhead

/-- The longest lexeme of a class at the front of a text has a length. -/
def FrontIs (kind : SegmentClass) (length : Nat) (text : List Char) : Prop :=
  ∃ lexeme rest, text = lexeme ++ rest ∧ lexeme.length = length ∧ IsLongest kind lexeme rest

theorem frontIs_blank (hne : (text.takeWhile isBlank).length ≠ 0) :
    FrontIs .blank (text.takeWhile isBlank).length text := by
  refine ⟨text.takeWhile isBlank, text.dropWhile isBlank,
    List.takeWhile_append_dropWhile.symm, rfl, ?_⟩
  rw [isLongest_iff]
  refine ⟨.blank (List.ne_nil_of_length_pos (Nat.pos_of_ne_zero hne)) fun c =>
    List.mem_takeWhile_imp, ?_⟩
  rintro ⟨c, hc, hblank⟩
  simp [eq_false_of_mem_head?_dropWhile hc] at hblank

theorem frontIs_number (hne : numberLength text ≠ 0) :
    FrontIs .number (numberLength text) text := by
  have hsplit := (List.takeWhile_append_dropWhile (p := isDigit) (l := text)).symm
  have hwhole : ∀ c ∈ text.takeWhile isDigit, isDigit c = true := fun c => List.mem_takeWhile_imp
  have hbehind : ¬ ∃ c ∈ (text.dropWhile isDigit).head?, isDigit c = true := by
    rintro ⟨c, hc, hdigit⟩
    simp [eq_false_of_mem_head?_dropWhile hc] at hdigit
  -- Without a fraction the number ends where its digits do.
  have hplain (hpoint : ¬ ∃ c more, text.dropWhile isDigit = '.' :: c :: more ∧ isDigit c = true)
      (hdigits : (text.takeWhile isDigit).length ≠ 0) :
      FrontIs .number (text.takeWhile isDigit).length text := by
    refine ⟨_, _, hsplit, rfl, isLongest_iff.mpr ⟨.number (.whole ⟨?_, hwhole⟩), ?_⟩⟩
    · exact List.ne_nil_of_length_pos (Nat.pos_of_ne_zero hdigits)
    · rintro (hdigit | ⟨-, hfraction⟩)
      · exact hbehind hdigit
      · exact hpoint hfraction
  unfold numberLength at hne ⊢
  split at hne
  · next more hmore =>
      split at hne
      · next hnone =>
          refine hplain ?_ hne
          rintro ⟨c, others, hcons, hdigit⟩
          rw [hmore] at hcons
          cases hcons
          simp [hdigit] at hnone
      · next fraction hsome =>
          have hdigits : IsDigits (more.takeWhile isDigit) :=
            ⟨List.ne_nil_of_length_pos (Nat.pos_of_ne_zero hsome), fun c => List.mem_takeWhile_imp⟩
          refine ⟨text.takeWhile isDigit ++ '.' :: more.takeWhile isDigit, more.dropWhile isDigit,
            ?_, ?_, isLongest_iff.mpr ⟨.number (.fraction hwhole hdigits), ?_⟩⟩
          · rw [List.append_assoc, List.cons_append, List.takeWhile_append_dropWhile, ← hmore]
            exact hsplit
          · simp only [List.length_append, List.length_cons]
            omega
          · rintro (⟨c, hc, hdigit⟩ | ⟨hpoint, -⟩)
            · simp [eq_false_of_mem_head?_dropWhile hc] at hdigit
            · simp at hpoint
  · next hother =>
      refine hplain ?_ hne
      rintro ⟨c, more, hcons, -⟩
      exact hother _ hcons

theorem not_goesOn_name_cons (hletter : isNameRest c = false)
    (hpoint : ∀ next more, c = '.' → rest = next :: more → isNameStart next = false) :
    ¬ GoesOn .name text (c :: rest) := by
  rintro (⟨first, hfirst, hrest⟩ | ⟨next, more, hcons, hstart⟩)
  · cases hfirst
    simp [hletter] at hrest
  · cases hcons
    simp [hpoint next more rfl rfl] at hstart

/-- A name is made as long as it gets. -/
theorem exists_nameLength_true (text : List Char) {before : List Char} (hbefore : IsName before) :
    ∃ extra rest, text = extra ++ rest ∧ extra.length = nameLength true text ∧
      IsName (before ++ extra) ∧ ¬ GoesOn .name (before ++ extra) rest := by
  generalize hinside : true = inPart
  fun_induction nameLength inPart text generalizing before with
  | case1 => exact ⟨[], [], rfl, rfl, by simpa using hbefore, by simp [GoesOn]⟩
  | case2 inPart first more hstart ih =>
      simp only [Bool.and_eq_true] at hstart
      obtain ⟨extra, rest, rfl, hlength, hname, hends⟩ := ih (hbefore.append_point hstart.2) rfl
      refine ⟨'.' :: first :: extra, rest, rfl, ?_, by simpa using hname, by simpa using hends⟩
      simp only [List.length_cons, hlength]
      omega
  | case3 inPart first more hstart =>
      subst hinside
      refine ⟨[], '.' :: first :: more, rfl, rfl, by simpa using hbefore,
        not_goesOn_name_cons (by decide) ?_⟩
      rintro next others - hcons
      cases hcons
      simpa using hstart
  | case4 first more hpoint hrest ih =>
      obtain ⟨extra, rest, rfl, hlength, hname, hends⟩ := ih (hbefore.append_singleton hrest) rfl
      refine ⟨first :: extra, rest, rfl, ?_, by simpa using hname, by simpa using hends⟩
      simp only [List.length_cons, hlength]
      omega
  | case5 first more hpoint hrest =>
      refine ⟨[], first :: more, rfl, rfl, by simpa using hbefore,
        not_goesOn_name_cons (by simpa using hrest) ?_⟩
      intro next others hfirst hcons
      exact absurd hcons (hpoint next others hfirst)
  | case6 inPart _ _ _ houtside _ _ => exact absurd hinside.symm houtside
  | case7 inPart _ _ _ houtside _ => exact absurd hinside.symm houtside

theorem nameLength_false_cons (first : Char) (more : List Char) :
    nameLength false (first :: more)
      = if isNameStart first then 1 + nameLength true more else 0 := by
  have hpoint : isNameStart '.' = false := by decide
  rw [nameLength.eq_def false]
  split <;> simp_all

theorem frontIs_name (hne : nameLength false text ≠ 0) :
    FrontIs .name (nameLength false text) text := by
  rcases text with - | ⟨first, more⟩
  · simp [nameLength] at hne
  · by_cases hstart : isNameStart first = true
    · rw [nameLength_false_cons, if_pos hstart]
      have hsingle : IsName [first] := .part ⟨first, [], rfl, hstart, by simp⟩
      obtain ⟨extra, rest, rfl, hextra, hname, hends⟩ := exists_nameLength_true more hsingle
      refine ⟨first :: extra, rest, rfl, ?_, isLongest_iff.mpr ⟨.name hname, hends⟩⟩
      rw [List.length_cons, hextra, Nat.add_comm]
    · simp [nameLength_false_cons, hstart] at hne

theorem frontIs_symbol {s : Token.Symbol} {length : Nat}
    (hsymbol : symbol? text = some (s, length)) : FrontIs (.symbol s) length text := by
  have hlexeme := Lexeme.symbol s
  refine ⟨text.take length, text.drop length, (List.take_append_drop length text).symm, ?_, ?_⟩
  · unfold symbol? at hsymbol
    split at hsymbol <;> cases hsymbol <;> rfl
  rw [isLongest_iff]
  revert hlexeme
  unfold symbol? at hsymbol
  split at hsymbol <;> cases hsymbol <;>
    simp_all [GoesOn, Token.Symbol.text, List.head?_eq_some_iff]

/-- What is found at the front of a text is the longest lexeme there. -/
theorem frontIs_of_front? {length : Nat} (hfront : front? text = some (kind, length)) :
    FrontIs kind length text := by
  unfold front? at hfront
  split at hfront
  · next hblank =>
      cases hfront
      simpa only [hblank] using @frontIs_blank text (by omega)
  · next hnumber =>
      cases hfront
      simpa only [hnumber] using @frontIs_number text (by omega)
  · next hname =>
      cases hfront
      simpa only [hname] using @frontIs_name text (by omega)
  · obtain ⟨⟨s, length'⟩, hsymbol, heq⟩ := Option.map_eq_some_iff.mp hfront
    cases heq
    exact frontIs_symbol hsymbol

theorem length_takeWhile_le_numberLength (text : List Char) :
    (text.takeWhile isDigit).length ≤ numberLength text := by
  unfold numberLength
  split
  · split <;> omega
  · exact Nat.le_refl _

theorem IsDigits.numberLength_ne_zero (hdigits : IsDigits text) (rest : List Char) :
    numberLength (text ++ rest) ≠ 0 := by
  have hle := length_takeWhile_le_numberLength (text ++ rest)
  rw [List.takeWhile_append_of_pos hdigits.2, List.length_append] at hle
  have hpos := List.length_pos_iff.mpr hdigits.1
  omega

theorem IsNumber.numberLength_ne_zero (hnumber : IsNumber text) (rest : List Char) :
    numberLength (text ++ rest) ≠ 0 := by
  induction hnumber with
  | whole hdigits => exact hdigits.numberLength_ne_zero rest
  | @fraction whole digits hwhole hdigits =>
      by_cases hne : whole = []
      · obtain ⟨first, more, rfl⟩ := List.exists_cons_of_ne_nil hdigits.1
        have hfirst : isDigit first = true := hdigits.2 first List.mem_cons_self
        subst hne
        simp [numberLength, isDigit_point, hfirst]
      · rw [List.append_assoc]
        exact IsDigits.numberLength_ne_zero ⟨hne, hwhole⟩ _

theorem symbol?_ne_none (s : Token.Symbol) (rest : List Char) :
    symbol? (s.text.toList ++ rest) ≠ none := by
  by_cases hequals : ∃ more, rest = '=' :: more
  · obtain ⟨more, rfl⟩ := hequals
    cases s <;> nofun
  · have hother (more : List Char) : rest ≠ '=' :: more := fun heq => hequals ⟨more, heq⟩
    cases s <;> simp [Token.Symbol.text, symbol?]

/-- Where nothing is found at the front of a text, no lexeme stands there. -/
theorem isStuck_of_front? (hfront : front? text = none) : IsStuck text := by
  rintro kind lexeme hlexeme ⟨rest, rfl⟩
  unfold front? at hfront
  split at hfront
  · cases hfront
  · cases hfront
  · cases hfront
  · next hblank hnumber hname =>
      induction hlexeme with
      | blank hne hrun =>
          rw [List.takeWhile_append_of_pos hrun, List.length_append] at hblank
          have hpos := List.length_pos_iff.mpr hne
          omega
      | number hlexeme => exact hlexeme.numberLength_ne_zero rest hnumber
      | name hlexeme =>
          obtain ⟨first, more, rfl, hfirst⟩ := hlexeme.exists_cons
          rw [List.cons_append, nameLength_false_cons, if_pos hfirst] at hname
          omega
      | symbol s =>
          have hsome := symbol?_ne_none s rest
          simp [hsome] at hfront

end Lexer

end Stylesheet
