import Mathlib.Data.List.TakeWhile
import Stylesheet.Decimal.Numeral
import Stylesheet.Proofs.Lexer.Lexeme

/-!
# Numerals

Which texts are numerals, said without a reader.  What is read off the front of a text is the
longest numeral there, and there is none exactly if nothing is read.  A text that is a numeral is
read as a number as a whole.
-/

namespace Stylesheet.Decimal

open Text
open Lexer (IsDigits isDigit_eq_false_of_isBlank)

/-- A sign that is written, or left out before a positive number. -/
inductive IsSign : Bool → List Char → Prop where
  | none : IsSign false []
  | plus : IsSign false ['+']
  | minus : IsSign true ['-']

/-- `IsMantissa whole fraction text`: digits before and after a point, of which there has to be one
somewhere.  The point may be left out when no digits follow it. -/
inductive IsMantissa : List Char → List Char → List Char → Prop where
  | whole {whole : List Char} (hwhole : IsDigits whole) : IsMantissa whole [] whole
  | point {whole fraction : List Char} (hsome : whole ++ fraction ≠ [])
      (hwhole : ∀ c ∈ whole, isDigit c = true) (hfraction : ∀ c ∈ fraction, isDigit c = true) :
      IsMantissa whole fraction (whole ++ '.' :: fraction)

/-- An exponent with its mark and its sign, or none. -/
inductive IsExponent : Int → List Char → Prop where
  | none : IsExponent 0 []
  | marked {mark : Char} {negative : Bool} {sign digits : List Char}
      (hmark : mark = 'e' ∨ mark = 'E') (hsign : IsSign negative sign) (hdigits : IsDigits digits) :
      IsExponent (if negative then -(digitsValue digits : Int) else digitsValue digits)
        (mark :: (sign ++ digits))

/-- `numeral.IsWritten text`: a sign, a mantissa and an exponent, one after the other. -/
inductive Numeral.IsWritten : Numeral → List Char → Prop where
  | parts {negative : Bool} {whole fraction : List Char} {exponent : Int}
      {sign mantissa power : List Char} (hsign : IsSign negative sign)
      (hmantissa : IsMantissa whole fraction mantissa) (hpower : IsExponent exponent power) :
      Numeral.IsWritten ⟨negative, whole, fraction, exponent⟩ (sign ++ (mantissa ++ power))

/-- The texts that are numerals. -/
def IsNumeral (text : List Char) : Prop :=
  ∃ numeral : Numeral, numeral.IsWritten text

/-- `numeral.IsLongest front text`: the front of a text is a numeral, and none that the text starts
with is longer. -/
structure Numeral.IsLongest (numeral : Numeral) (front text : List Char) : Prop where
  starts : front <+: text
  written : numeral.IsWritten front
  longest {other : List Char} : other <+: text → IsNumeral other → other.length ≤ front.length

variable {text rest : List Char} {c : Char}

/-! ## Reading the parts -/

theorem exists_cons_of_isDigits (hdigits : IsDigits text) :
    ∃ first more, text = first :: more ∧ isDigit first = true ∧ ∀ c ∈ more, isDigit c = true := by
  obtain ⟨first, more, rfl⟩ := List.exists_cons_of_ne_nil hdigits.1
  obtain ⟨hfirst, hmore⟩ := List.forall_mem_cons.mp hdigits.2
  exact ⟨first, more, rfl, hfirst, hmore⟩

/-- A character that no number starts with behind its sign, such as a sign. -/
theorem ne_of_isDigit {d : Char} (hc : isDigit c = true) (hd : isDigit d = false) : c ≠ d := by
  rintro rfl
  cases hc.symm.trans hd

/-- A text without a sign. -/
theorem takeSign_cons (hplus : c ≠ '+') (hminus : c ≠ '-') (rest : List Char) :
    takeSign (c :: rest) = (false, c :: rest) := by
  unfold takeSign
  split
  · next hsplit => exact absurd (List.head_eq_of_cons_eq hsplit) hminus
  · next hsplit => exact absurd (List.head_eq_of_cons_eq hsplit) hplus
  · rfl

/-- A sign is taken off in front of anything that starts with no sign. -/
theorem IsSign.takeSign_append {negative : Bool} {sign : List Char} (hsign : IsSign negative sign)
    (hplus : c ≠ '+') (hminus : c ≠ '-') (rest : List Char) :
    takeSign (sign ++ c :: rest) = (negative, c :: rest) := by
  cases hsign with
  | none => exact takeSign_cons hplus hminus rest
  | plus | minus => rfl

theorem isSign_takeSign (text : List Char) :
    ∃ sign, IsSign (takeSign text).1 sign ∧ text = sign ++ (takeSign text).2 := by
  unfold takeSign
  split
  · exact ⟨_, .minus, rfl⟩
  · exact ⟨_, .plus, rfl⟩
  · exact ⟨_, .none, rfl⟩

theorem all_isDigit_takeWhile (text : List Char) : ∀ c ∈ text.takeWhile isDigit, isDigit c = true :=
  fun _ hc => List.mem_takeWhile_imp hc

/-- Digits in front of a text are all taken. -/
theorem span_append (hdigits : ∀ c ∈ text, isDigit c = true) (rest : List Char) :
    (text ++ rest).takeWhile isDigit = text ++ rest.takeWhile isDigit ∧
      (text ++ rest).dropWhile isDigit = rest.dropWhile isDigit :=
  ⟨List.takeWhile_append_of_pos hdigits, List.dropWhile_append_of_pos hdigits⟩

/-- Nothing is taken of a text that does not start with a digit. -/
theorem span_of_head (hhead : ∀ c ∈ text.head?, isDigit c = false) :
    text.takeWhile isDigit = [] ∧ text.dropWhile isDigit = text := by
  cases text with
  | nil => exact ⟨rfl, rfl⟩
  | cons c more =>
      have hc : ¬ isDigit c = true := by simp [hhead c rfl]
      exact ⟨List.takeWhile_cons_of_neg hc, List.dropWhile_cons_of_neg hc⟩

theorem isMantissa_of_takeDigits? {whole fraction : List Char}
    (htaken : takeDigits? text = some ((whole, fraction), rest)) :
    ∃ mantissa, IsMantissa whole fraction mantissa ∧ text = mantissa ++ rest := by
  have hwhole := all_isDigit_takeWhile text
  have hsplit : text.takeWhile isDigit ++ text.dropWhile isDigit = text :=
    List.takeWhile_append_dropWhile
  unfold takeDigits? at htaken
  split at htaken
  · next more hnone hpoint =>
      rw [hnone, hpoint] at hsplit
      split at htaken
      · cases htaken
      · next hsome =>
          cases htaken
          refine ⟨_, .point hsome (List.forall_mem_nil _) (all_isDigit_takeWhile more), ?_⟩
          rw [List.append_assoc, List.cons_append, List.takeWhile_append_dropWhile, hsplit]
  · cases htaken
  · next more hpoint hsome =>
      cases htaken
      rw [hpoint] at hsplit
      refine ⟨_, .point ?_ hwhole (all_isDigit_takeWhile more), ?_⟩
      · exact List.append_ne_nil_of_left_ne_nil hsome _
      · rw [List.append_assoc, List.cons_append, List.takeWhile_append_dropWhile, hsplit]
  · next hsome _ _ =>
      cases htaken
      exact ⟨_, .whole ⟨hsome, hwhole⟩, hsplit.symm⟩

/-- The fraction goes as far as there are digits behind the point. -/
theorem takeDigits?_point {whole fraction : List Char} (hsome : whole ++ fraction ≠ [])
    (hwhole : ∀ c ∈ whole, isDigit c = true) (hfraction : ∀ c ∈ fraction, isDigit c = true)
    (rest : List Char) :
    takeDigits? (whole ++ '.' :: (fraction ++ rest))
      = some ((whole, fraction ++ rest.takeWhile isDigit), rest.dropWhile isDigit) := by
  have hpoint : ∀ c ∈ ('.' :: (fraction ++ rest)).head?, isDigit c = false := by
    rintro c ⟨⟩
    rfl
  obtain ⟨htake, hdrop⟩ := span_append hwhole ('.' :: (fraction ++ rest))
  obtain ⟨hstops, hkeeps⟩ := span_of_head hpoint
  obtain ⟨hfractionTake, hfractionDrop⟩ := span_append hfraction rest
  rw [hstops, List.append_nil] at htake
  rw [hkeeps] at hdrop
  unfold takeDigits?
  rw [htake, hdrop]
  cases whole with
  | cons first more => simp only [hfractionTake, hfractionDrop]
  | nil =>
      have hmore : fraction ++ rest.takeWhile isDigit ≠ [] :=
        List.append_ne_nil_of_left_ne_nil hsome _
      simp only [hfractionTake, hfractionDrop]

/-- Of a text that starts with a mantissa no less than this mantissa is read, and no more if
neither a digit nor a point follows it. -/
theorem IsMantissa.takeDigits?_append {whole fraction mantissa : List Char}
    (hmantissa : IsMantissa whole fraction mantissa) (rest : List Char) :
    ∃ parts unread, takeDigits? (mantissa ++ rest) = some (parts, unread) ∧ unread <:+ rest ∧
      ((∀ c ∈ rest.head?, isDigit c = false ∧ c ≠ '.') →
        parts = (whole, fraction) ∧ unread = rest) := by
  have hsuffix := List.dropWhile_suffix (l := rest) isDigit
  cases hmantissa with
  | whole hwhole =>
      obtain ⟨htake, hdrop⟩ := span_append hwhole.2 rest
      have hsome : whole ++ rest.takeWhile isDigit ≠ [] :=
        List.append_ne_nil_of_left_ne_nil hwhole.1 _
      unfold takeDigits?
      rw [htake, hdrop]
      split
      · next hnone _ => exact absurd hnone hsome
      · next hnone _ => exact absurd hnone hsome
      · next more hpoint _ =>
          rw [hpoint] at hsuffix
          refine ⟨_, _, rfl, ?_, fun hhead => ?_⟩
          · exact (List.dropWhile_suffix _).trans ((List.suffix_cons _ _).trans hsuffix)
          · obtain ⟨-, hrest⟩ := span_of_head fun c hc => (hhead c hc).1
            rw [hrest] at hpoint
            exact absurd rfl (hhead '.' (by rw [hpoint]; rfl)).2
      · refine ⟨_, _, rfl, hsuffix, fun hhead => ?_⟩
        obtain ⟨hnone, hrest⟩ := span_of_head fun c hc => (hhead c hc).1
        rw [hnone, hrest, List.append_nil]
        exact ⟨rfl, rfl⟩
  | point hsome hwhole hfraction =>
      rw [List.append_assoc, List.cons_append]
      refine ⟨_, _, takeDigits?_point hsome hwhole hfraction rest, hsuffix, fun hhead => ?_⟩
      obtain ⟨hnone, hrest⟩ := span_of_head fun c hc => (hhead c hc).1
      rw [hnone, hrest, List.append_nil]
      exact ⟨rfl, rfl⟩

theorem isExponent_takeExponent (text : List Char) :
    ∃ power, IsExponent (takeExponent text).1 power ∧ text = power ++ (takeExponent text).2 := by
  unfold takeExponent
  split
  · next mark rest =>
      split
      · next hmark =>
          obtain ⟨sign, hsign, hrest⟩ := isSign_takeSign rest
          generalize takeSign rest = signed at hsign hrest
          obtain ⟨negative, digits⟩ := signed
          dsimp only at hsign hrest ⊢
          split
          · exact ⟨[], .none, rfl⟩
          · next hsome =>
              have hmark' : mark = 'e' ∨ mark = 'E' := by simpa using hmark
              refine ⟨_, .marked hmark' hsign ⟨hsome, all_isDigit_takeWhile digits⟩, ?_⟩
              rw [List.cons_append, List.append_assoc, List.takeWhile_append_dropWhile, hrest]
      · exact ⟨[], .none, rfl⟩
  · exact ⟨[], .none, rfl⟩

/-- Of a text that starts with an exponent no less than this exponent is read, and no more if no
digit follows it. -/
theorem IsExponent.takeExponent_append {exponent : Int} {power : List Char}
    (hpower : IsExponent exponent power) (rest : List Char) :
    (takeExponent (power ++ rest)).2 <:+ rest ∧
      (rest = [] → takeExponent (power ++ rest) = (exponent, [])) := by
  cases hpower with
  | none =>
      obtain ⟨power, -, hrest⟩ := isExponent_takeExponent rest
      refine ⟨⟨power, hrest.symm⟩, ?_⟩
      rintro rfl
      rfl
  | @marked mark negative sign digits hmark hsign hdigits =>
      obtain ⟨first, more, rfl, hfirst, -⟩ := exists_cons_of_isDigits hdigits
      have hsigned := hsign.takeSign_append (ne_of_isDigit hfirst rfl) (ne_of_isDigit hfirst rfl)
        (more ++ rest)
      obtain ⟨htake, hdrop⟩ := span_append hdigits.2 rest
      have hmark' : (mark == 'e' || mark == 'E') = true := by simpa using hmark
      have hread : takeExponent (mark :: (sign ++ first :: (more ++ rest)))
          = (if negative then -(digitsValue (first :: more ++ rest.takeWhile isDigit) : Int)
              else digitsValue (first :: more ++ rest.takeWhile isDigit),
            rest.dropWhile isDigit) := by
        rw [List.cons_append] at htake hdrop
        simp only [takeExponent, hmark', if_true, hsigned, htake, hdrop, List.cons_append]
      rw [List.cons_append, List.append_assoc, List.cons_append, hread]
      refine ⟨List.dropWhile_suffix _, ?_⟩
      rintro rfl
      rw [List.takeWhile_nil, List.append_nil]
      rfl

/-! ## Reading numerals -/

theorem IsMantissa.exists_cons {whole fraction mantissa : List Char}
    (hmantissa : IsMantissa whole fraction mantissa) :
    ∃ first more, mantissa = first :: more ∧ first ≠ '+' ∧ first ≠ '-' := by
  cases hmantissa with
  | whole hwhole =>
      obtain ⟨first, more, rfl, hfirst, -⟩ := exists_cons_of_isDigits hwhole
      exact ⟨first, more, rfl, ne_of_isDigit hfirst rfl, ne_of_isDigit hfirst rfl⟩
  | point _ hwhole _ =>
      cases whole with
      | nil => exact ⟨'.', fraction, rfl, by decide, by decide⟩
      | cons first more =>
          have hfirst := hwhole first List.mem_cons_self
          exact ⟨first, _, rfl, ne_of_isDigit hfirst rfl, ne_of_isDigit hfirst rfl⟩

theorem isWritten_of_takeNumeral? {numeral : Numeral}
    (htaken : takeNumeral? text = some (numeral, rest)) :
    ∃ front, numeral.IsWritten front ∧ text = front ++ rest := by
  obtain ⟨sign, hsign, htext⟩ := isSign_takeSign text
  unfold takeNumeral? at htaken
  generalize takeSign text = signed at hsign htext htaken
  obtain ⟨negative, unsigned⟩ := signed
  dsimp only at hsign htext htaken
  split at htaken
  · cases htaken
  · next whole fraction behind hdigits =>
      obtain ⟨mantissa, hmantissa, hunsigned⟩ := isMantissa_of_takeDigits? hdigits
      obtain ⟨power, hpower, hbehind⟩ := isExponent_takeExponent behind
      cases htaken
      refine ⟨_, .parts hsign hmantissa hpower, ?_⟩
      rw [htext, hunsigned, List.append_assoc, List.append_assoc, ← hbehind]

/-- Of a text that starts with a numeral no less than this numeral is read, and of the numeral
alone the numeral. -/
theorem Numeral.IsWritten.takeNumeral?_append {numeral : Numeral} {front : List Char}
    (hwritten : numeral.IsWritten front) (rest : List Char) :
    ∃ read unread, takeNumeral? (front ++ rest) = some (read, unread) ∧ unread <:+ rest ∧
      (rest = [] → read = numeral) := by
  cases hwritten with
  | @parts negative whole fraction exponent sign mantissa power hsign hmantissa hpower =>
      obtain ⟨first, more, hfirst, hplus, hminus⟩ := hmantissa.exists_cons
      have hsigned : takeSign (sign ++ (mantissa ++ (power ++ rest)))
          = (negative, mantissa ++ (power ++ rest)) := by
        rw [hfirst]
        exact hsign.takeSign_append hplus hminus _
      obtain ⟨⟨read, digits⟩, behind, hdigits, hsuffix, hexact⟩ :=
        hmantissa.takeDigits?_append (power ++ rest)
      have hread : takeNumeral? (sign ++ (mantissa ++ power) ++ rest)
          = some (⟨negative, read, digits, (takeExponent behind).1⟩, (takeExponent behind).2) := by
        rw [List.append_assoc, List.append_assoc, takeNumeral?]
        simp only [hsigned, hdigits]
      refine ⟨_, _, hread, ?_⟩
      obtain ⟨hunread, hwhole⟩ := hpower.takeExponent_append rest
      cases hpower with
      | none =>
          obtain ⟨power, -, hbehind⟩ := isExponent_takeExponent behind
          refine ⟨List.IsSuffix.trans ⟨power, hbehind.symm⟩ hsuffix, ?_⟩
          rintro rfl
          obtain ⟨hparts, rfl⟩ := hexact nofun
          cases hparts
          rfl
      | marked hmark _ _ =>
          -- the mark of the exponent is neither a digit nor a point, so the mantissa ends there
          obtain ⟨hparts, rfl⟩ := hexact (by
            rintro c ⟨⟩
            rcases hmark with rfl | rfl <;> exact ⟨rfl, by decide⟩)
          cases hparts
          refine ⟨hunread, fun hrest => ?_⟩
          rw [hwhole hrest]

/-- A numeral is read off its own text, so a text is no more than one numeral. -/
theorem Numeral.IsWritten.takeNumeral?_eq {numeral : Numeral} (hwritten : numeral.IsWritten text) :
    takeNumeral? text = some (numeral, []) := by
  obtain ⟨read, unread, hread, hsuffix, hnumeral⟩ := hwritten.takeNumeral?_append []
  rw [List.append_nil] at hread
  rw [hread, hnumeral rfl, List.suffix_nil.mp hsuffix]

/-- What is read is the longest numeral at the front of a text. -/
theorem takeNumeral?_eq_some_iff {numeral : Numeral} :
    takeNumeral? text = some (numeral, rest) ↔
      ∃ front, text = front ++ rest ∧ numeral.IsLongest front text := by
  constructor
  · intro htaken
    obtain ⟨front, hwritten, rfl⟩ := isWritten_of_takeNumeral? htaken
    refine ⟨front, rfl, List.prefix_append _ _, hwritten, ?_⟩
    rintro other ⟨behind, hbehind⟩ ⟨_, hother⟩
    obtain ⟨_, unread, hread, hsuffix, -⟩ := hother.takeNumeral?_append behind
    rw [hbehind, htaken] at hread
    cases hread
    have hlength := congrArg List.length hbehind
    have hshort := hsuffix.length_le
    simp only [List.length_append] at hlength
    omega
  · rintro ⟨front, rfl, hlongest⟩
    obtain ⟨read, unread, hread, hsuffix, -⟩ := hlongest.written.takeNumeral?_append rest
    obtain ⟨other, hother, hsplit⟩ := isWritten_of_takeNumeral? hread
    -- as much is read as the longest numeral has, so the texts of both are one
    have hshort := hlongest.longest ⟨unread, hsplit.symm⟩ ⟨read, hother⟩
    have hlength := congrArg List.length hsplit
    have hmore := hsuffix.length_le
    simp only [List.length_append] at hlength
    obtain ⟨rfl, rfl⟩ := List.append_inj hsplit (by omega)
    have hsame := hother.takeNumeral?_eq.symm.trans hlongest.written.takeNumeral?_eq
    cases hsame
    exact hread

theorem takeNumeral?_eq_none_iff :
    takeNumeral? text = none ↔ ∀ front, front <+: text → ¬ IsNumeral front := by
  constructor
  · rintro hnone front ⟨rest, rfl⟩ ⟨numeral, hwritten⟩
    obtain ⟨read, unread, hread, -, -⟩ := hwritten.takeNumeral?_append rest
    cases hnone.symm.trans hread
  · intro hnone
    cases htaken : takeNumeral? text with
    | none => rfl
    | some read =>
        obtain ⟨numeral, rest⟩ := read
        obtain ⟨front, hwritten, rfl⟩ := isWritten_of_takeNumeral? htaken
        exact absurd ⟨numeral, hwritten⟩ (hnone front (List.prefix_append _ _))

/-- A text that starts with a numeral starts with a longest one. -/
theorem exists_isLongest {front : List Char} (hstarts : front <+: text)
    (hnumeral : IsNumeral front) :
    ∃ (numeral : Numeral) (longest : List Char), numeral.IsLongest longest text := by
  cases htaken : takeNumeral? text with
  | none => exact absurd hnumeral (takeNumeral?_eq_none_iff.mp htaken front hstarts)
  | some read =>
      obtain ⟨longest, -, hlongest⟩ := takeNumeral?_eq_some_iff.mp htaken
      exact ⟨read.1, longest, hlongest⟩

/-- And with one longest numeral only. -/
theorem Numeral.IsLongest.unique {numeral other : Numeral} {front longest : List Char}
    (hnumeral : numeral.IsLongest front text) (hother : other.IsLongest longest text) :
    numeral = other ∧ front = longest := by
  obtain ⟨rest, rfl⟩ := hnumeral.starts
  obtain ⟨more, hmore⟩ := hother.starts
  have htaken := takeNumeral?_eq_some_iff.mpr ⟨front, rfl, hnumeral⟩
  rw [takeNumeral?_eq_some_iff.mpr ⟨longest, hmore.symm, hother⟩] at htaken
  cases htaken
  exact ⟨rfl, (List.append_cancel_right hmore).symm⟩

/-! ## Reading a numeral as a whole text -/

def isNumeralChar (c : Char) : Bool :=
  isDigit c || ['+', '-', '.', 'e', 'E'].contains c

theorem isNumeralChar_of_isDigit (hc : isDigit c = true) : isNumeralChar c = true := by
  rw [isNumeralChar, hc, Bool.true_or]

theorem IsSign.all_isNumeralChar {negative : Bool} {sign : List Char}
    (hsign : IsSign negative sign) : ∀ c ∈ sign, isNumeralChar c = true := by
  cases hsign with
  | none => exact List.forall_mem_nil _
  | plus | minus => exact List.forall_mem_singleton.mpr rfl

theorem IsMantissa.all_isNumeralChar {whole fraction mantissa : List Char}
    (hmantissa : IsMantissa whole fraction mantissa) : ∀ c ∈ mantissa, isNumeralChar c = true := by
  cases hmantissa with
  | whole hwhole => exact fun c hc => isNumeralChar_of_isDigit (hwhole.2 c hc)
  | point _ hwhole hfraction =>
      refine List.forall_mem_append.mpr ⟨?_, List.forall_mem_cons.mpr ⟨rfl, ?_⟩⟩
      · exact fun c hc => isNumeralChar_of_isDigit (hwhole c hc)
      · exact fun c hc => isNumeralChar_of_isDigit (hfraction c hc)

theorem IsExponent.all_isNumeralChar {exponent : Int} {power : List Char}
    (hpower : IsExponent exponent power) : ∀ c ∈ power, isNumeralChar c = true := by
  cases hpower with
  | none => exact List.forall_mem_nil _
  | marked hmark hsign hdigits =>
      refine List.forall_mem_cons.mpr ⟨?_, List.forall_mem_append.mpr ⟨hsign.all_isNumeralChar, ?_⟩⟩
      · rcases hmark with rfl | rfl <;> rfl
      · exact fun c hc => isNumeralChar_of_isDigit (hdigits.2 c hc)

theorem Numeral.IsWritten.all_isNumeralChar {numeral : Numeral} (hwritten : numeral.IsWritten text) :
    ∀ c ∈ text, isNumeralChar c = true := by
  cases hwritten with
  | parts hsign hmantissa hpower =>
      exact List.forall_mem_append.mpr ⟨hsign.all_isNumeralChar,
        List.forall_mem_append.mpr ⟨hmantissa.all_isNumeralChar, hpower.all_isNumeralChar⟩⟩

theorem isPadding_eq_false (hc : isNumeralChar c = true) : isPadding c = false := by
  have hblank : isBlank c = false := by
    rcases Bool.or_eq_true_iff.mp hc with hdigit | hother
    · refine Bool.eq_false_iff.mpr fun hblank => ?_
      cases hdigit.symm.trans (isDigit_eq_false_of_isBlank hblank)
    · simp only [List.contains_eq_mem, List.mem_cons, List.not_mem_nil, or_false,
        decide_eq_true_eq] at hother
      rcases hother with rfl | rfl | rfl | rfl | rfl <;> rfl
  rw [isPadding, hblank, Bool.false_and]

theorem dropWhile_isPadding (hnone : ∀ c ∈ text, isPadding c = false) :
    text.dropWhile isPadding = text := by
  cases text with
  | nil => rfl
  | cons first more =>
      exact List.dropWhile_cons_of_neg (by simp [hnone first List.mem_cons_self])

theorem trimPadding_eq_self (hnone : ∀ c ∈ text, isPadding c = false) : trimPadding text = text := by
  rw [trimPadding, dropWhile_isPadding hnone, dropWhile_isPadding, List.reverse_reverse]
  exact fun c hc => hnone c (List.mem_reverse.mp hc)

/-- A text without underscores has none to drop. -/
theorem dropSeparators?_eq_self (hnone : '_' ∉ text) (afterDigit : Bool) :
    dropSeparators? afterDigit text = some text := by
  induction text generalizing afterDigit with
  | nil => rfl
  | cons first more ih =>
      obtain ⟨hfirst, hmore⟩ := not_or.mp (mt List.mem_cons.mpr hnone)
      unfold dropSeparators?
      split
      · next hsplit => cases hsplit
      · next hsplit => exact absurd (List.head_eq_of_cons_eq hsplit).symm hfirst
      · next hsplit =>
          cases hsplit
          rw [ih hmore, Option.map_some]

/-- A text that is a numeral is read as the double of this numeral. -/
theorem Numeral.IsWritten.readFloat?_eq {numeral : Numeral} (hwritten : numeral.IsWritten text) :
    readFloat? text = some numeral.toFloat := by
  have hchars := hwritten.all_isNumeralChar
  have htrim : trimPadding text = text :=
    trimPadding_eq_self fun c hc => isPadding_eq_false (hchars c hc)
  have hseparators : dropSeparators? false text = some text := by
    refine dropSeparators?_eq_self (fun hunderscore => ?_) false
    cases hchars '_' hunderscore
  rw [readFloat?, htrim, hseparators]
  simp only [Option.bind_eq_bind, Option.bind_some, hwritten.takeNumeral?_eq]

end Stylesheet.Decimal
