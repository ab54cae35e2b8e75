import Stylesheet.Proofs.Rule.Color
import Stylesheet.Proofs.Rule.FontFamily

/-!
# Normal forms of colours

A colour that has been read has six or eight digits in upper case.  They are read as the same colour
again, in either case, however they are marked, spaced and quoted.
-/

namespace Stylesheet

namespace Color

open Text

variable {color : Color} {c d : Char} {digits mark : List Char}

/-- The digits of colours that have been read. -/
structure IsNormal (digits : List Char) : Prop where
  length : digits.length = 6 ∨ digits.length = 8
  hexadecimal : ∀ d ∈ digits, isHexDigit d = true

theorem isNormal_of_ofText? {text : String} {color : Color}
    (hcolor : ofText? text = some color) : IsNormal color.hex.toList := by
  obtain ⟨letters, hletters, hhex⟩ := ofText?_eq_some_iff.mp hcolor
  rw [hhex]
  refine ⟨length_expand_iff.mpr ?_, fun d hd => ?_⟩
  · rw [length_upper hletters.hexadecimal]
    exact hletters.length
  · exact forall_isHexDigit_upper_iff.mpr hletters.hexadecimal d (mem_of_mem_expand hd)

theorem IsNormal.isLength (hnormal : IsNormal digits) : IsLength digits.length := by
  rcases hnormal.length with hlength | hlength
  · exact .inr (.inr (.inl hlength))
  · exact .inr (.inr (.inr hlength))

theorem IsNormal.expand_eq (hnormal : IsNormal digits) : expand digits = digits := by
  have hlength := hnormal.length
  exact if_neg (by omega)

/-- Digits in upper case stay as they are, and so do those that are read in lower case. -/
theorem toUpper_of_isHexDigit (hd : isHexDigit d = true) :
    d.toUpper = d ∧ d.toLower.toUpper = d ∧ IsDigit d.toLower :=
  forall_ascii (P := fun d => isHexDigit d = true →
      d.toUpper = d ∧ d.toLower.toUpper = d ∧ IsDigit d.toLower)
    (by decide +kernel) (toNat_lt_of_isDigit (isDigit_of_isHexDigit hd)) hd

theorem isBlank_of_isDigit (hc : IsDigit c) : isBlank c = false :=
  forall_ascii (P := fun c => IsDigit c → isBlank c = false) (by decide +kernel)
    (toNat_lt_of_isDigit hc) hc

theorem IsMark.isBlank_eq_false (hmark : IsMark mark) : ∀ c ∈ mark, isBlank c = false := by
  cases hmark with
  | none => exact List.forall_mem_nil _
  | hash => exact List.forall_mem_singleton.mpr rfl
  | lower | upper => exact List.forall_mem_cons.mpr ⟨rfl, List.forall_mem_singleton.mpr rfl⟩

/-- White space around a mark and digits makes no difference. -/
theorem writtenAs_of_blanks {before after : List Char}
    (hbefore : ∀ c ∈ before, isBlank c = true) (hafter : ∀ c ∈ after, isBlank c = true)
    (hmark : IsMark mark) (hdigits : ∀ c ∈ digits, IsDigit c) (hlength : IsLength digits.length) :
    WrittenAs (before ++ (mark ++ digits) ++ after) digits := by
  refine ⟨⟨mark, hmark, ?_⟩, hdigits, hlength⟩
  rw [trim_of_blanks hbefore hafter]
  refine trim_eq_self_of_forall fun c hc => ?_
  rcases List.mem_append.mp hc with hc | hc
  · exact hmark.isBlank_eq_false c hc
  · exact isBlank_of_isDigit (hdigits c hc)

/-- A colour is read from any text that is written as its digits. -/
theorem ofText?_of_isNormal (hnormal : IsNormal color.hex.toList) {text : String}
    (hwritten : WrittenAs text.toList digits) (hupper : digits.map Char.toUpper = color.hex.toList) :
    ofText? text = some color := by
  rw [ofText?_of_writtenAs hwritten, hupper, hnormal.expand_eq, String.ofList_toList]

theorem IsNormal.map_toUpper (hnormal : IsNormal digits) : digits.map Char.toUpper = digits := by
  have hdigit : ∀ d ∈ digits, d.toUpper = id d :=
    fun d hd => (toUpper_of_isHexDigit (hnormal.hexadecimal d hd)).1
  rw [List.map_congr_left hdigit, List.map_id]

theorem IsNormal.map_toLower_toUpper (hnormal : IsNormal digits) :
    (digits.map Char.toLower).map Char.toUpper = digits := by
  have hdigit : ∀ d ∈ digits, (Char.toUpper ∘ Char.toLower) d = id d :=
    fun d hd => (toUpper_of_isHexDigit (hnormal.hexadecimal d hd)).2.1
  rw [List.map_map, List.map_congr_left hdigit, List.map_id]

/-- The ways to write a colour: its digits, with a mark or not, and in either case. -/
theorem ofText?_of_normal (hnormal : IsNormal color.hex.toList) {written : String}
    (hwritten : written ∈ [color.hex, "#" ++ color.hex, "0x" ++ color.hex.toLower])
    {before after : String} (hbefore : ∀ c ∈ before.toList, isBlank c = true)
    (hafter : ∀ c ∈ after.toList, isBlank c = true) :
    ofText? (before ++ written ++ after) = some color := by
  have hdigits : ∀ d ∈ color.hex.toList, IsDigit d :=
    fun d hd => isDigit_of_isHexDigit (hnormal.hexadecimal d hd)
  simp only [List.mem_cons, List.not_mem_nil, or_false] at hwritten
  rcases hwritten with rfl | rfl | rfl
  · refine ofText?_of_isNormal hnormal ?_ hnormal.map_toUpper
    have hplain := writtenAs_of_blanks hbefore hafter .none hdigits hnormal.isLength
    simpa using hplain
  · refine ofText?_of_isNormal hnormal ?_ hnormal.map_toUpper
    have hhash := writtenAs_of_blanks hbefore hafter .hash hdigits hnormal.isLength
    simpa using hhash
  · refine ofText?_of_isNormal hnormal ?_ hnormal.map_toLower_toUpper
    have hlower : ∀ d ∈ color.hex.toList.map Char.toLower, IsDigit d :=
      List.forall_mem_map.mpr fun d hd => (toUpper_of_isHexDigit (hnormal.hexadecimal d hd)).2.2
    have hlength : IsLength (color.hex.toList.map Char.toLower).length := by
      rw [List.length_map]
      exact hnormal.isLength
    have hmarked := writtenAs_of_blanks hbefore hafter .lower hlower hlength
    have hhex : color.hex.toLower.toList = color.hex.toList.map Char.toLower := String.toList_map
    simpa [hhex] using hmarked

theorem depthAfter_of_isHexDigit (hd : isHexDigit d = true) : Literal.depthAfter 0 d = 0 :=
  forall_ascii (P := fun d => isHexDigit d = true → Literal.depthAfter 0 d = 0)
    (by decide +kernel) (toNat_lt_of_isDigit (isDigit_of_isHexDigit hd)) hd

theorem toList_text (color : Color) : color.text.toList = '#' :: color.hex.toList := by
  rw [text, String.toList_append]
  rfl

/-- The text of a colour can stand as the argument of a call. -/
theorem isArgument_text (hnormal : IsNormal color.hex.toList) :
    Literal.IsArgument color.text.toList := by
  have hdigit {d : Char} (hd : d ∈ color.hex.toList) : isHexDigit d = true :=
    hnormal.hexadecimal d hd
  rw [toList_text]
  refine Literal.isArgument_of_forall ?_ ?_ ?_
  · refine List.forall_mem_cons.mpr ⟨by decide, fun d hd => ?_⟩
    exact isBlank_of_isDigit (isDigit_of_isHexDigit (hdigit hd))
  · intro hcomma
    rcases List.mem_cons.mp hcomma with hcomma | hcomma
    · cases hcomma
    · cases hdigit hcomma
  · refine List.forall_mem_cons.mpr ⟨rfl, fun d hd => depthAfter_of_isHexDigit (hdigit hd)⟩

end Color

namespace RuleContext

open Literal

/-- A call of a colour. -/
def colorCall (argument : String) : String :=
  colorMark ++ "(" ++ argument ++ ")"

theorem toList_colorCall (argument : String) :
    (colorCall argument).toList = colorMark.toList ++ '(' :: argument.toList ++ [')'] := by
  simp [colorCall]

variable {argument : String} {color : Color}

theorem exists_toList_colorCall (argument : String) :
    ∃ rest, (colorCall argument).toList = '!' :: '!' :: 'c' :: rest := by
  have hmark : colorMark.toList = ['!', '!', 'c', 'o', 'l', 'o', 'r'] := by decide +kernel
  rw [toList_colorCall, hmark]
  exact ⟨_, rfl⟩

/-- A call of a colour with one argument is read from this argument. -/
theorem parseText_colorCall (context : RuleContext) (hne : argument.toList ≠ [])
    (hargument : IsArgument argument.toList)
    (hcolor : Color.ofText? (unquote argument) = some color) :
    context.parseText (colorCall argument) = pure (.plain (.color color)) := by
  obtain ⟨rest, hstart⟩ := exists_toList_colorCall argument
  have hbody : body? (colorCall argument) = none := body?_eq_none hstart (by decide) (by decide)
  have hfont : isCallOf fontMark (colorCall argument) = false := by
    have hmark : fontMark.toList = ['!', '!', 'f', 'o', 'n', 't'] := by decide +kernel
    rw [isCallOf, hstart, hmark]
    rfl
  have hcall : isCallOf colorMark (colorCall argument) = true := by
    rw [isCallOf, toList_colorCall, List.append_assoc]
    exact List.isPrefixOf_iff_prefix.mpr (List.prefix_append _ _)
  have harguments : callArguments colorMark (colorCall argument) = [argument] := by
    rw [callArguments, toList_colorCall, argumentChars_of_single (head?_mark (.inr rfl)) hne
      hargument, List.map_singleton, String.ofList_toList]
  unfold parseText
  rw [hbody]
  dsimp only
  rw [hfont, if_neg Bool.false_ne_true, if_pos hcall, harguments]
  dsimp only
  rw [hcolor]

end RuleContext

namespace Color

open Literal

variable {color : Color}

theorem unquote_text (color : Color) : unquote color.text = color.text := by
  have hkept : unquoteChars color.text.toList = color.text.toList := by
    rw [toList_text, unquoteChars, if_neg fun hquotes => absurd hquotes.1 (by decide)]
  rw [unquote, hkept, String.ofList_toList]

theorem ofText?_text (hnormal : IsNormal color.hex.toList) : ofText? color.text = some color := by
  have hplain : ofText? ("" ++ color.text ++ "") = some color :=
    ofText?_of_normal hnormal (List.mem_cons_of_mem _ List.mem_cons_self) (by simp) (by simp)
  simpa using hplain

/-- The text of a colour is read as that colour. -/
theorem parseText_text (context : RuleContext) (hnormal : IsNormal color.hex.toList) :
    context.parseText (RuleContext.colorCall color.text) = pure (.plain (.color color)) := by
  apply context.parseText_colorCall
  · rw [toList_text]
    exact List.cons_ne_nil _ _
  · exact isArgument_text hnormal
  · rw [unquote_text, ofText?_text hnormal]

/-- So it is between quotes. -/
theorem parseText_quoted_text (context : RuleContext) (hnormal : IsNormal color.hex.toList)
    {quote : Char} (hquote : isQuote quote = true) {argument : String}
    (hargument : argument.toList = quoted quote color.text.toList) :
    context.parseText (RuleContext.colorCall argument) = pure (.plain (.color color)) := by
  apply context.parseText_colorCall
  · rw [hargument]
    exact List.cons_ne_nil _ _
  · obtain ⟨-, hclosed, hwhole⟩ := isArgument_text hnormal
    rw [hargument]
    exact (isArgument_quoted_iff hquote).mpr ⟨hclosed, hwhole⟩
  · rw [unquote, hargument, unquoteChars_quoted hquote, String.ofList_toList, ofText?_text hnormal]

/-- What a text is read as is normal, six or eight digits in upper case, and is read again as
itself: from its digits, bare or marked, in the white space around them, and as the argument of a
call, bare or in quotes, where nothing is recorded. -/
theorem ofText?_normalizes {text : String} (hcolor : ofText? text = some color) :
    ((color.hex.length = 6 ∨ color.hex.length = 8) ∧
        ∀ d ∈ color.hex.toList, isHexDigit d = true) ∧
      (∀ written ∈ [color.hex, "#" ++ color.hex, "0x" ++ color.hex.toLower],
        ∀ before after : String, (∀ c ∈ before.toList, Text.isBlank c = true) →
          (∀ c ∈ after.toList, Text.isBlank c = true) →
            ofText? (before ++ written ++ after) = some color) ∧
      ∀ context : RuleContext,
        ∀ argument ∈ [color.text, "'" ++ color.text ++ "'", "\"" ++ color.text ++ "\""],
          context.parseText (colorMark ++ "(" ++ argument ++ ")")
            = pure (.plain (.color color)) := by
  have hnormal := isNormal_of_ofText? hcolor
  refine ⟨⟨hnormal.length, hnormal.hexadecimal⟩, ?_, ?_⟩
  · intro written hwritten before after hbefore hafter
    exact ofText?_of_normal hnormal hwritten hbefore hafter
  · intro context argument hargument
    simp only [List.mem_cons, List.not_mem_nil, or_false] at hargument
    rcases hargument with rfl | rfl | rfl
    · exact parseText_text context hnormal
    · have hsingle : isQuote '\'' = true := rfl
      exact parseText_quoted_text context hnormal hsingle (by simp [quoted])
    · have hdouble : isQuote '"' = true := rfl
      exact parseText_quoted_text context hnormal hdouble (by simp [quoted])

/-- A short colour with a mark, spaced out. -/
theorem ofText?_normalizes_short :
    ofText? " 0xaBc\t" = some ⟨"AABBCC"⟩ ∧ ofText? "\n0xaabbcc" = some ⟨"AABBCC"⟩ ∧
      RuleContext.parseText ⟨({} : Environment).provider, none⟩ "!!color('#AABBCC')"
        = pure (.plain (.color ⟨"AABBCC"⟩)) := by
  have hshort : ofText? " 0xaBc\t" = some ⟨"AABBCC"⟩ := by decide +kernel
  obtain ⟨-, hwritten, hcalls⟩ := ofText?_normalizes hshort
  have hlower := hwritten ("0x" ++ "AABBCC".toLower) (by simp) "\n" ""
    (List.all_eq_true.mp (by decide)) (List.forall_mem_nil _)
  have hspelled : "\n" ++ ("0x" ++ "AABBCC".toLower) ++ "" = "\n0xaabbcc" := by decide +kernel
  have hquoted := hcalls ⟨({} : Environment).provider, none⟩ ("'" ++ "#AABBCC" ++ "'")
    (by decide +kernel)
  exact ⟨hshort, hspelled ▸ hlower, hquoted⟩

end Color

end Stylesheet
