import Stylesheet.Proofs.Text.Uppercase
import Stylesheet.Rule.Color

/-!
# Colours as they are written

The digits of a colour are read in either case, and one character that is no digit is read as two
of them: the ligature `ﬀ`, as its upper case is `FF`.
-/

namespace Stylesheet

namespace Color

open Text

/-- A mark that may stand before the digits. -/
inductive IsMark : List Char → Prop where
  | none : IsMark []
  | hash : IsMark ['#']
  | lower : IsMark ['0', 'x']
  | upper : IsMark ['0', 'X']

def IsDigit (c : Char) : Prop :=
  ('0' ≤ c ∧ c ≤ '9') ∨ ('A' ≤ c ∧ c ≤ 'F') ∨ ('a' ≤ c ∧ c ≤ 'f')

instance : DecidablePred IsDigit :=
  fun _ => inferInstanceAs (Decidable (_ ∨ _ ∨ _))

/-- The character whose upper case is two digits, `FF`. -/
def ligature : Char := '\ufb00'

def IsLength (n : Nat) : Prop :=
  n = 3 ∨ n = 4 ∨ n = 6 ∨ n = 8

/-- `WrittenAs text digits`: between white space and after a mark, if there is one, a text is the
digits of a colour. -/
structure WrittenAs (text digits : List Char) : Prop where
  marked : ∃ mark, IsMark mark ∧ trim text = mark ++ digits
  hexadecimal : ∀ c ∈ digits, IsDigit c
  length : IsLength digits.length

/-- `WrittenLoosely text letters`: the same with ligatures allowed, which count as two digits. -/
structure WrittenLoosely (text letters : List Char) : Prop where
  marked : ∃ mark, IsMark mark ∧ trim text = mark ++ letters
  hexadecimal : ∀ c ∈ letters, IsDigit c ∨ c = ligature
  length : IsLength (letters.length + letters.count ligature)

variable {c d : Char} {text digits letters mark full : List Char}

section Characters

theorem toNat_lt_of_isDigit (hc : IsDigit c) : c.toNat < 0x80 := by
  have hbound : c.toNat ≤ 'f'.toNat := by
    rcases hc with ⟨-, hc⟩ | ⟨-, hc⟩ | ⟨-, hc⟩
    · exact Nat.le_trans hc (by decide)
    · exact Nat.le_trans hc (by decide)
    · exact hc
  exact Nat.lt_of_le_of_lt hbound (by decide)

theorem isDigit_of_isHexDigit (hc : isHexDigit c = true) : IsDigit c := by
  simp only [isHexDigit, Bool.or_eq_true, Bool.and_eq_true, decide_eq_true_eq] at hc
  rcases hc with hc | hc
  · exact .inl hc
  · exact .inr (.inl hc)

/-- A digit is a digit in upper case too, and nothing else of ASCII is one. -/
theorem isHexDigit_toUpper_iff (hc : c.toNat < 0x80) :
    isHexDigit c.toUpper = true ↔ IsDigit c := by
  revert hc
  refine forall_ascii (P := fun c => isHexDigit c.toUpper = true ↔ IsDigit c) ?_
  decide +kernel

theorem upperChar_of_isDigit (hc : IsDigit c) : upperChar c = [c.toUpper] :=
  upperChar_of_ascii (toNat_lt_of_isDigit hc)

theorem upperChar_ligature : upperChar ligature = ['F', 'F'] := by
  decide +kernel

/-- Of the characters that become several, only the ligature becomes digits alone. -/
theorem forall_caseExpansions : ∀ entry ∈ caseExpansions,
    entry.1 = ligature.toNat ∨ ∃ code ∈ entry.2, isHexDigit (Char.ofNat code) = false := by
  decide +kernel

theorem isDigit_or_eq_ligature (hupper : ∀ d ∈ upperChar c, isHexDigit d = true) :
    IsDigit c ∨ c = ligature := by
  by_cases hc : c.toNat < 0x80
  · rw [upperChar_of_ascii hc, List.forall_mem_singleton] at hupper
    exact .inl ((isHexDigit_toUpper_iff hc).mp hupper)
  · rcases upperChar_cases (Nat.not_lt.mp hc) with ⟨codes, hcodes, heq⟩ | ⟨d, heq, hd⟩
    · rw [heq, List.forall_mem_map] at hupper
      rcases forall_caseExpansions _ hcodes with hligature | ⟨code, hcode, hno⟩
      · exact .inr (Char.toNat_inj.mp hligature)
      · cases hno.symm.trans (hupper code hcode)
    · rw [heq, List.forall_mem_singleton] at hupper
      have hlow := toNat_lt_of_isDigit (isDigit_of_isHexDigit hupper)
      rcases hd with hhigh | rfl | rfl
      · omega
      · cases hupper
      · cases hupper

theorem forall_isHexDigit_upper_iff :
    (∀ d ∈ upper letters, isHexDigit d = true) ↔ ∀ c ∈ letters, IsDigit c ∨ c = ligature := by
  rw [upper, List.forall_mem_flatMap]
  refine forall₂_congr fun c _ => ⟨isDigit_or_eq_ligature, ?_⟩
  rintro (hdigit | rfl)
  · rw [upperChar_of_isDigit hdigit, List.forall_mem_singleton]
    exact (isHexDigit_toUpper_iff (toNat_lt_of_isDigit hdigit)).mpr hdigit
  · rw [upperChar_ligature]
    exact List.all_eq_true.mp rfl

theorem upper_of_isDigit (hdigits : ∀ c ∈ digits, IsDigit c) :
    upper digits = digits.map Char.toUpper := by
  induction digits with
  | nil => rfl
  | cons c rest ih =>
      obtain ⟨hc, hrest⟩ := List.forall_mem_cons.mp hdigits
      rw [upper_cons, upperChar_of_isDigit hc, ih hrest]
      rfl

/-- A ligature counts as two digits. -/
theorem length_upper (hletters : ∀ c ∈ letters, IsDigit c ∨ c = ligature) :
    (upper letters).length = letters.length + letters.count ligature := by
  induction letters with
  | nil => rfl
  | cons c rest ih =>
      obtain ⟨hc, hrest⟩ := List.forall_mem_cons.mp hletters
      rw [upper_cons, List.length_append, ih hrest, List.length_cons, List.count_cons]
      rcases hc with hdigit | rfl
      · have hother : c ≠ ligature := by
          rintro rfl
          exact absurd hdigit (by decide)
        simp only [upperChar_of_isDigit hdigit, List.length_singleton, beq_iff_eq, hother, if_false]
        omega
      · simp only [upperChar_ligature, List.length_cons, List.length_nil, beq_self_eq_true, if_true]
        omega

end Characters

section Marks

/-- Beyond ASCII no character has an upper case that starts like a mark. -/
theorem upperChar_no_mark (hc : 0x80 ≤ c.toNat) :
    ∃ d more, upperChar c = d :: more ∧ d ∉ ['#', '0', 'X'] := by
  have hexpansions : ∀ entry ∈ caseExpansions, entry.2 ≠ [] ∧
      ∀ code ∈ entry.2, Char.ofNat code ∉ ['#', '0', 'X'] := by
    decide +kernel
  rcases upperChar_cases hc with ⟨codes, hcodes, heq⟩ | ⟨d, heq, hd⟩
  · obtain ⟨hne, hmarks⟩ := hexpansions _ hcodes
    obtain ⟨code, more, rfl⟩ := List.exists_cons_of_ne_nil hne
    exact ⟨_, _, heq, hmarks code List.mem_cons_self⟩
  · refine ⟨d, [], heq, ?_⟩
    rcases hd with hd | rfl | rfl
    · intro hmark
      simp only [List.mem_cons, List.not_mem_nil, or_false] at hmark
      have hlow : d.toNat < 0x80 := by
        rcases hmark with rfl | rfl | rfl <;> decide
      omega
    · decide
    · decide

/-- So a text whose upper case starts like a mark starts with a character of ASCII. -/
theorem exists_cons_of_upper {rest : List Char} (htext : upper text = d :: rest)
    (hd : d ∈ ['#', '0', 'X']) :
    ∃ c more, text = c :: more ∧ c.toNat < 0x80 ∧ c.toUpper = d ∧ upper more = rest := by
  cases text with
  | nil => cases htext
  | cons c more =>
      rw [upper_cons] at htext
      by_cases hc : c.toNat < 0x80
      · rw [upperChar_of_ascii hc, List.singleton_append] at htext
        obtain ⟨hupper, hmore⟩ := List.cons_eq_cons.mp htext
        exact ⟨c, more, rfl, hc, hupper, hmore⟩
      · obtain ⟨d', others, heq, hd'⟩ := upperChar_no_mark (Nat.not_lt.mp hc)
        rw [heq, List.cons_append] at htext
        obtain ⟨rfl, -⟩ := List.cons_eq_cons.mp htext
        exact absurd hd hd'

theorem eq_of_toUpper (hc : c.toNat < 0x80) :
    (c.toUpper = '#' → c = '#') ∧ (c.toUpper = '0' → c = '0') ∧
      (c.toUpper = 'X' → c = 'x' ∨ c = 'X') := by
  revert hc
  refine forall_ascii (P := fun c => (c.toUpper = '#' → c = '#') ∧ (c.toUpper = '0' → c = '0') ∧
    (c.toUpper = 'X' → c = 'x' ∨ c = 'X')) ?_
  decide +kernel

/-- The mark that is dropped in upper case is one that the text has. -/
theorem exists_mark (text : List Char) :
    ∃ mark rest, IsMark mark ∧ text = mark ++ rest ∧ dropMark (upper text) = upper rest := by
  generalize hupper : upper text = all
  unfold dropMark
  split
  · obtain ⟨c, rest, rfl, hc, heq, hrest⟩ := exists_cons_of_upper hupper (by decide)
    obtain rfl := (eq_of_toUpper hc).1 heq
    exact ⟨_, rest, .hash, rfl, hrest.symm⟩
  · obtain ⟨c, more, rfl, hc, heq, hmore⟩ := exists_cons_of_upper hupper (by decide)
    obtain rfl := (eq_of_toUpper hc).2.1 heq
    obtain ⟨c, rest, rfl, hc, heq, hrest⟩ := exists_cons_of_upper hmore (by decide)
    rcases (eq_of_toUpper hc).2.2 heq with rfl | rfl
    · exact ⟨_, rest, .lower, rfl, hrest.symm⟩
    · exact ⟨_, rest, .upper, rfl, hrest.symm⟩
  · exact ⟨[], text, .none, rfl, hupper.symm⟩

theorem dropMark_eq_self (hdigits : ∀ d ∈ text, isHexDigit d = true) : dropMark text = text := by
  unfold dropMark
  split
  · cases hdigits '#' List.mem_cons_self
  · cases hdigits 'X' (List.mem_cons_of_mem _ List.mem_cons_self)
  · rfl

/-- A mark before letters that are read as digits is dropped. -/
theorem dropMark_upper (hmark : IsMark mark) (hletters : ∀ c ∈ letters, IsDigit c ∨ c = ligature) :
    dropMark (upper (mark ++ letters)) = upper letters := by
  cases hmark with
  | none => exact dropMark_eq_self (forall_isHexDigit_upper_iff.mpr hletters)
  | hash | lower | upper => rfl

end Marks

section Reading

theorem length_doubled (digits : List Char) :
    (digits.flatMap fun c => [c, c]).length = 2 * digits.length := by
  induction digits with
  | nil => rfl
  | cons c rest ih =>
      rw [List.flatMap_cons, List.length_append, ih]
      show 2 + 2 * rest.length = 2 * (rest.length + 1)
      omega

theorem length_expand_iff :
    (expand digits).length = 6 ∨ (expand digits).length = 8 ↔ IsLength digits.length := by
  unfold expand IsLength
  split
  · rw [length_doubled]
    omega
  · omega

theorem mem_of_mem_expand (hd : d ∈ expand digits) : d ∈ digits := by
  unfold expand at hd
  split at hd
  · obtain ⟨c, hc, hd⟩ := List.mem_flatMap.mp hd
    rcases List.mem_pair.mp hd with rfl | rfl
    · exact hc
    · exact hc
  · exact hd

/-- A text is a colour exactly if it is one with ligatures allowed. -/
theorem digits?_eq_some_iff :
    digits? text = some full ↔
      ∃ letters, WrittenLoosely text letters ∧ full = expand (upper letters) := by
  unfold digits?
  dsimp only
  rw [Option.ite_none_right_eq_some, Option.some.injEq, List.all_eq_true, length_expand_iff]
  constructor
  · rintro ⟨⟨hdigits, hlength⟩, rfl⟩
    obtain ⟨mark, letters, hmark, htext, hdrop⟩ := exists_mark (trim text)
    rw [hdrop] at hdigits hlength ⊢
    have hletters := forall_isHexDigit_upper_iff.mp hdigits
    exact ⟨letters, ⟨⟨mark, hmark, htext⟩, hletters, length_upper hletters ▸ hlength⟩, rfl⟩
  · rintro ⟨letters, ⟨⟨mark, hmark, htext⟩, hletters, hlength⟩, rfl⟩
    rw [htext, dropMark_upper hmark hletters, length_upper hletters]
    exact ⟨⟨forall_isHexDigit_upper_iff.mpr hletters, hlength⟩, rfl⟩

theorem ofText?_eq_some_iff {text : String} {color : Color} :
    ofText? text = some color ↔
      ∃ letters, WrittenLoosely text.toList letters ∧
        color.hex.toList = expand (upper letters) := by
  unfold ofText?
  rw [Option.map_eq_some_iff]
  constructor
  · rintro ⟨full, hfull, rfl⟩
    obtain ⟨letters, hletters, rfl⟩ := digits?_eq_some_iff.mp hfull
    exact ⟨letters, hletters, String.toList_ofList⟩
  · rintro ⟨letters, hletters, hhex⟩
    refine ⟨_, digits?_eq_some_iff.mpr ⟨letters, hletters, rfl⟩, ?_⟩
    rw [← hhex, String.ofList_toList]

/-- Digits are letters without a ligature. -/
theorem writtenAs_iff :
    WrittenAs text digits ↔ WrittenLoosely text digits ∧ ligature ∉ digits := by
  constructor
  · rintro ⟨hmarked, hdigits, hlength⟩
    have hnone : ligature ∉ digits := fun hmem => absurd (hdigits _ hmem) (by decide)
    refine ⟨⟨hmarked, fun c hc => .inl (hdigits c hc), ?_⟩, hnone⟩
    rwa [List.count_eq_zero_of_not_mem hnone]
  · rintro ⟨⟨hmarked, hletters, hlength⟩, hnone⟩
    refine ⟨hmarked, fun c hc => ?_, ?_⟩
    · rcases hletters c hc with hdigit | rfl
      · exact hdigit
      · exact absurd hc hnone
    · rwa [List.count_eq_zero_of_not_mem hnone] at hlength

/-- A text that is written as digits is read as these, in upper case and the short form doubled. -/
theorem ofText?_of_writtenAs {text : String} (hdigits : WrittenAs text.toList digits) :
    ofText? text = some ⟨String.ofList (expand (digits.map Char.toUpper))⟩ := by
  refine ofText?_eq_some_iff.mpr ⟨digits, (writtenAs_iff.mp hdigits).1, ?_⟩
  rw [String.toList_ofList, upper_of_isDigit hdigits.hexadecimal]

theorem not_mem_mark (hmark : IsMark mark) : ligature ∉ mark := by
  cases hmark <;> decide

/-- A text is read exactly if it is written as the digits of a colour, and then as these digits in
upper case, of which three or four are doubled. -/
def ReadsAsWritten (text : String) : Prop :=
  ((∃ color, ofText? text = some color) ↔ ∃ digits, WrittenAs text.toList digits) ∧
    ∀ digits, WrittenAs text.toList digits → ∃ color, ofText? text = some color ∧
      color.hex.toList = if digits.length = 3 ∨ digits.length = 4
        then digits.flatMap fun c => [c.toUpper, c.toUpper] else digits.map Char.toUpper

/-- What is written with a ligature is read, but it is not written as digits. -/
theorem not_readsAsWritten_of_ligature {text : String}
    (hletters : WrittenLoosely text.toList letters) (hligature : ligature ∈ letters) :
    ¬ ReadsAsWritten text := by
  rintro ⟨hread, -⟩
  obtain ⟨digits, hdigits⟩ := hread.mp
    ⟨⟨_⟩, ofText?_eq_some_iff.mpr ⟨letters, hletters, String.toList_ofList⟩⟩
  obtain ⟨mark, hmark, htext⟩ := hdigits.marked
  obtain ⟨mark', -, htext'⟩ := hletters.marked
  -- the ligature stands in the text, so it would stand in the mark or among the digits
  have hmem : ligature ∈ mark ++ digits := by
    rw [← htext, htext']
    exact List.mem_append_right mark' hligature
  rcases List.mem_append.mp hmem with hmem | hmem
  · exact not_mem_mark hmark hmem
  · exact (writtenAs_iff.mp hdigits).2 hmem

/-- Texts are read as they are written, except for those with a ligature among their digits, which
counts as two of them. -/
theorem readsAsWritten_iff_no_ligature (text : String) :
    ReadsAsWritten text ↔
      ¬ ∃ letters, WrittenLoosely text.toList letters ∧ ligature ∈ letters := by
  constructor
  · rintro hread ⟨letters, hletters, hligature⟩
    exact not_readsAsWritten_of_ligature hletters hligature hread
  · intro hnone
    refine ⟨⟨?_, ?_⟩, ?_⟩
    · rintro ⟨color, hcolor⟩
      obtain ⟨letters, hletters, -⟩ := ofText?_eq_some_iff.mp hcolor
      exact ⟨letters, writtenAs_iff.mpr
        ⟨hletters, fun hligature => hnone ⟨letters, hletters, hligature⟩⟩⟩
    · rintro ⟨digits, hdigits⟩
      exact ⟨_, ofText?_of_writtenAs hdigits⟩
    · intro digits hdigits
      refine ⟨_, ofText?_of_writtenAs hdigits, ?_⟩
      rw [String.toList_ofList, expand, List.length_map, List.flatMap_map]

/-- Three ligatures are read as white. -/
theorem not_readsAsWritten_ligatures :
    ofText? "\ufb00\ufb00\ufb00" = some ⟨"FFFFFF"⟩ ∧
      ¬ ReadsAsWritten "\ufb00\ufb00\ufb00" := by
  have hletters : WrittenLoosely "\ufb00\ufb00\ufb00".toList [ligature, ligature, ligature] := by
    refine ⟨⟨[], .none, by decide⟩, ?_, .inr (.inr (.inl rfl))⟩
    intro c hc
    simp only [List.mem_cons, List.not_mem_nil, or_false, or_self] at hc
    exact .inr hc
  exact ⟨by decide +kernel, not_readsAsWritten_of_ligature hletters List.mem_cons_self⟩

end Reading

end Color

end Stylesheet
