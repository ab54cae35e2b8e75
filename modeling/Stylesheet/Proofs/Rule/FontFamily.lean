import Stylesheet.Environment.Snapshot
import Stylesheet.Proofs.Rule.Arguments
import Stylesheet.Proofs.Rule.FontSize

/-!
# Quoted font families

The quotes around a font family are taken off after the arguments are split, so splitting does not
know of them.  They keep the white space and the letters of a family as they are, but no comma
outside brackets, and no bracket that is not closed.
-/

namespace Stylesheet

namespace Literal

open Text

/-- A text between two quotes. -/
def quoted (quote : Char) (text : List Char) : List Char :=
  quote :: (text ++ [quote])

variable {quote : Char} {family text : List Char}

theorem isBlank_quote (hquote : isQuote quote = true) : isBlank quote = false := by
  rcases Bool.or_eq_true_iff.mp hquote with hquote | hquote <;>
    (rw [eq_of_beq hquote]; decide)

theorem depthAfter_quote (hquote : isQuote quote = true) (depth : Int) :
    depthAfter depth quote = depth := by
  rcases Bool.or_eq_true_iff.mp hquote with hquote | hquote <;> (rw [eq_of_beq hquote]; rfl)

theorem commasFrom_quote (hquote : isQuote quote = true) (depth : Int) (text : List Char) :
    commasFrom depth (quote :: text) = commasFrom depth text := by
  have hcomma : quote ≠ ',' := by
    rintro rfl
    cases hquote
  rw [commasFrom_cons, depthAfter_quote hquote, if_neg fun hboth => hcomma hboth.1, Nat.zero_add]

theorem nesting_quote (hquote : isQuote quote = true) : nesting [quote] = 0 := by
  have hdepth := depthAfter_eq 0 quote
  rw [depthAfter_quote hquote] at hdepth
  omega

/-- Text that follows a quoted one is split as if it followed the bare one. -/
theorem commasFrom_quoted_append (hquote : isQuote quote = true) (rest : List Char) :
    commasFrom 0 (quoted quote family ++ rest)
      = outerCommas family + commasFrom (nesting family) rest := by
  rw [quoted, List.cons_append, commasFrom_quote hquote, List.append_assoc, commasFrom_append,
    List.singleton_append, commasFrom_quote hquote, Int.zero_add, outerCommas]

theorem nesting_quoted (hquote : isQuote quote = true) :
    nesting (quoted quote family) = nesting family := by
  rw [quoted, nesting_cons, nesting_append, nesting_quote hquote, Int.zero_add, Int.add_zero]

theorem trim_quoted (hquote : isQuote quote = true) :
    trim (quoted quote family) = quoted quote family := by
  refine trim_eq_self (fun c hc => ?_) fun c hc => ?_
  · cases hc
    exact isBlank_quote hquote
  · rw [quoted, ← List.cons_append, List.getLast?_concat] at hc
    cases hc
    exact isBlank_quote hquote

/-- A text between quotes is one argument if it closes its brackets and has no commas outside
them. -/
theorem isArgument_quoted_iff (hquote : isQuote quote = true) :
    IsArgument (quoted quote family) ↔ nesting family = 0 ∧ outerCommas family = 0 := by
  have hcommas : outerCommas (quoted quote family) = outerCommas family := by
    rw [outerCommas, ← List.append_nil (quoted quote family), commasFrom_quoted_append hquote]
    rfl
  constructor
  · intro hargument
    exact ⟨nesting_quoted hquote ▸ hargument.closed, hcommas ▸ hargument.whole⟩
  · rintro ⟨hclosed, hwhole⟩
    exact ⟨trim_quoted hquote, (nesting_quoted hquote).trans hclosed, hcommas.trans hwhole⟩

theorem unquoteChars_quoted (hquote : isQuote quote = true) :
    unquoteChars (quoted quote family) = family := by
  unfold unquoteChars quoted
  dsimp only
  rw [if_pos ⟨hquote, List.getLast?_concat⟩]
  exact List.dropLast_concat

/-- A text that starts with a quote and has none when it is unquoted stands between two. -/
theorem eq_quoted_of_unquoteChars (hunquote : unquoteChars (quote :: text) = family)
    (hfree : quote ∉ family) : quote :: text = quoted quote family := by
  unfold unquoteChars at hunquote
  split at hunquote
  · next first rest hsplit =>
      cases hsplit
      split at hunquote
      · next hquotes =>
          rw [quoted, ← hunquote, List.dropLast_append_getLast? quote hquotes.2]
      · exact absurd (hunquote ▸ List.mem_cons_self) hfree
  · next hsplit => cases hsplit

/-- If the first piece is unquoted to the family, it is the family between its quotes. -/
theorem eq_quoted_of_append {rest first second : List Char} (hquote : isQuote quote = true)
    (hfree : quote ∉ family)
    (htext : quoted quote family ++ ',' :: rest = first ++ ',' :: second)
    (hunquote : unquoteChars (trim first) = family) : first = quoted quote family := by
  cases first with
  | nil =>
      obtain rfl : quote = ',' := List.head_eq_of_cons_eq htext
      cases hquote
  | cons c more =>
      obtain rfl : quote = c := List.head_eq_of_cons_eq htext
      have htrim : trim (quote :: more) = quote :: trimEnd more := by
        rw [trim, trimStart, List.dropWhile_cons_of_neg (by simp [isBlank_quote hquote]),
          trimEnd_cons_of_not_blank (isBlank_quote hquote)]
      rw [htrim] at hunquote
      have hquoted := eq_quoted_of_unquoteChars hunquote hfree
      obtain ⟨after, hafter, hmore⟩ := exists_trimEnd_append more
      have hfirst : quote :: more = quoted quote family ++ after := by
        rw [← hquoted, List.cons_append, ← hmore]
      rw [hfirst, List.append_assoc, List.append_cancel_left_eq] at htext
      -- the comma after the quotes is no white space
      cases after with
      | nil => rw [hfirst, List.append_nil]
      | cons blank _ =>
          obtain rfl : ',' = blank := List.head_eq_of_cons_eq htext
          cases hafter ',' List.mem_cons_self

/-- A quoted family and a size are the arguments of a call if the family is an argument. -/
theorem argumentChars_of_quoted {mark size piece : List Char}
    (hmark : ∀ c ∈ mark.head?, isBlank c = false) (hfamily : IsArgument (quoted quote family))
    (hsize : IsArgument size) (hpad : Pads size piece) :
    argumentChars mark (mark ++ '(' :: (quoted quote family ++ ',' :: piece) ++ [')'])
      = [quoted quote family, size] := by
  have harguments : ∀ argument ∈ [quoted quote family, size], IsArgument argument :=
    List.forall_mem_cons.mpr ⟨hfamily, List.forall_mem_singleton.mpr hsize⟩
  have hpads : List.Forall₂ Pads [quoted quote family, size] [quoted quote family, piece] :=
    .cons (pads_self _) (.cons hpad .nil)
  have hjoin := argumentChars_of_join hmark (List.cons_ne_nil _ _) (by simp) harguments hpads
  rwa [List.intercalate_cons_cons, List.intercalate_singleton,
    List.append_assoc (quoted quote family)] at hjoin

/-- And otherwise the first argument is no longer that family. -/
theorem isArgument_of_argumentChars {mark piece first second : List Char}
    (hmark : ∀ c ∈ mark.head?, isBlank c = false) (hquote : isQuote quote = true)
    (hfree : quote ∉ family)
    (harguments : argumentChars mark (mark ++ '(' :: (quoted quote family ++ ',' :: piece) ++ [')'])
      = [first, second])
    (hunquote : unquoteChars first = family) : IsArgument (quoted quote family) := by
  rcases argumentChars_cases mark (mark ++ '(' :: (quoted quote family ++ ',' :: piece) ++ [')'])
    with ⟨-, hnone⟩ | ⟨-, pieces, hcuts, hpieces⟩
  · cases hnone.symm.trans harguments
  · rw [callBody_of_call hmark] at hcuts
    rw [hpieces] at harguments
    obtain ⟨before, others, rfl, rfl, hothers⟩ := List.map_eq_cons_iff.mp harguments
    obtain ⟨after, none, rfl, rfl, hnone⟩ := List.map_eq_cons_iff.mp hothers
    obtain rfl := List.map_eq_nil_iff.mp hnone
    generalize htext : quoted quote family ++ ',' :: piece = text at hcuts
    cases hcuts with
    | cut hwhole hclosed hrest =>
        obtain rfl := eq_quoted_of_append hquote hfree htext hunquote
        rw [Int.zero_add] at hclosed
        exact ⟨trim_quoted hquote, hclosed, hwhole⟩

end Literal

namespace RuleContext

open Literal

/-- A font of twelve points whose family is written between quotes. -/
def quotedFont (quote : Char) (family : String) : String :=
  fontMark ++ "(" ++ String.singleton quote ++ family ++ String.singleton quote ++ ", 12)"

theorem toList_quotedFont (quote : Char) (family : String) :
    (quotedFont quote family).toList = fontMark.toList
      ++ '(' :: (quoted quote family.toList ++ ',' :: [' ', '1', '2']) ++ [')'] := by
  simp [quotedFont, quoted]

variable {quote : Char} {family : String}

theorem body?_quotedFont : body? (quotedFont quote family) = none := by
  have hmark : fontMark.toList = '!' :: ['!', 'f', 'o', 'n', 't'] := by decide +kernel
  have hstart : (quotedFont quote family).toList = '!' :: (['!', 'f', 'o', 'n', 't']
      ++ ('(' :: (quoted quote family.toList ++ ',' :: [' ', '1', '2']) ++ [')'])) := by
    rw [toList_quotedFont, hmark, List.append_assoc, List.cons_append]
  exact body?_eq_none hstart (by decide) (by decide)

theorem isCallOf_quotedFont : isCallOf fontMark (quotedFont quote family) = true := by
  rw [isCallOf, toList_quotedFont, List.append_assoc]
  exact List.isPrefixOf_iff_prefix.mpr (List.prefix_append _ _)

/-- A font with two arguments is read from its family and its size. -/
theorem parseText_of_font (context : RuleContext) {text family size : String}
    (hbody : body? text = none) (hfont : isCallOf fontMark text = true)
    (harguments : callArguments fontMark text = [family, size]) :
    context.parseText text
      = (do
          let points ← context.fontSize size
          let kept := context.sizeKept? size
          return .plain (.font (fontOf (unquote family) points kept))) := by
  unfold parseText
  rw [hbody]
  dsimp only
  rw [if_pos hfont, harguments]

/-- A text that is read as a font with a family name has this name in its first argument. -/
theorem exists_arguments_of_outcome {context : RuleContext} {text name : String} {points : Float}
    {kept : Option Query} (hfont : isCallOf fontMark text = true)
    (houtcome : (context.parseText text).outcome = .ok (.plain (.font ⟨some name, points, kept⟩))) :
    ∃ family size, callArguments fontMark text = [family, size] ∧ unquote family = name := by
  revert houtcome
  apply parseText_cases (motive := fun reading =>
    reading.outcome = .ok (.plain (.font ⟨some name, points, kept⟩)) →
      ∃ family size, callArguments fontMark text = [family, size] ∧ unquote family = name)
  case font =>
    intro _ _ family size harguments houtcome
    obtain ⟨read, -, hread⟩ := Logged.outcome_bind_eq_ok_iff.mp houtcome
    have hname : fontOf (unquote family) read (context.sizeKept? size) = ⟨some name, points, kept⟩ :=
      Plain.font.inj (Value.plain.inj (Except.ok.inj hread))
    refine ⟨family, size, harguments, ?_⟩
    unfold fontOf at hname
    split at hname
    · cases hname
    · exact Option.some.inj (congrArg Font.family hname)
  case fontCount =>
    intro _ _ _ houtcome
    cases houtcome
  case expression =>
    intro body _ houtcome
    obtain ⟨_, -, hread⟩ := Logged.outcome_bind_eq_ok_iff.mp houtcome
    cases hread
  case color | badColor | colorCount | string =>
    intro _ hnofont
    cases hnofont.symm.trans hfont

theorem unquote_ofList (text : List Char) :
    unquote (String.ofList text) = String.ofList (unquoteChars text) := by
  rw [unquote, String.toList_ofList]

/-- Twelve points are read as such. -/
theorem fontSize_twelve (context : RuleContext) :
    (context.fontSize "12" : RuleReading Float) = pure 12 := by
  rfl

/-- Quotes keep a family if, and only if, it closes its own brackets and has no commas outside
them: then the font has this family and twelve points, and nothing is recorded. -/
theorem parseText_quotedFont (context : RuleContext) (hquote : isQuote quote = true)
    (hfree : ∀ c ∈ family.toList, isQuote c = false)
    (hname : Text.sameLetters family.toList Font.systemName.toList = false) :
    ((context.parseText (quotedFont quote family)).outcome
        = .ok (.plain (.font ⟨some family, 12, none⟩)) ↔
      nesting family.toList = 0 ∧ outerCommas family.toList = 0) ∧
    (nesting family.toList = 0 → outerCommas family.toList = 0 →
      context.parseText (quotedFont quote family)
        = pure (.plain (.font ⟨some family, 12, none⟩))) := by
  have hmark : ∀ c ∈ fontMark.toList.head?, Text.isBlank c = false := head?_mark (.inl rfl)
  have hread (hargument : IsArgument (quoted quote family.toList)) :
      context.parseText (quotedFont quote family)
        = pure (.plain (.font ⟨some family, 12, none⟩)) := by
    have hpad : Pads ['1', '2'] [' ', '1', '2'] :=
      ⟨[' '], [], List.forall_mem_singleton.mpr (by decide), List.forall_mem_nil _, rfl⟩
    have hsize : IsArgument ['1', '2'] := ⟨by decide, by decide, by decide⟩
    have harguments : callArguments fontMark (quotedFont quote family)
        = [String.ofList (quoted quote family.toList), "12"] := by
      rw [callArguments, toList_quotedFont, argumentChars_of_quoted hmark hargument hsize hpad]
      rfl
    have hfamily : unquote (String.ofList (quoted quote family.toList)) = family := by
      rw [unquote_ofList, unquoteChars_quoted hquote, String.ofList_toList]
    have hfont : fontOf family 12 = ⟨some family, 12, none⟩ :=
      if_neg (Bool.eq_false_iff.mp hname)
    rw [context.parseText_of_font body?_quotedFont isCallOf_quotedFont harguments, hfamily,
      fontSize_twelve, pure_bind]
    dsimp only
    rw [sizeKept?_of_none (by decide), hfont]
  have hkeeps (houtcome : (context.parseText (quotedFont quote family)).outcome
      = .ok (.plain (.font ⟨some family, 12, none⟩))) : IsArgument (quoted quote family.toList) := by
    have hmem : quote ∉ family.toList := fun hmem => by
      cases hquote.symm.trans (hfree quote hmem)
    obtain ⟨first, second, harguments, hunquote⟩ :=
      exists_arguments_of_outcome isCallOf_quotedFont houtcome
    rw [callArguments, toList_quotedFont] at harguments
    obtain ⟨chars, others, hchars, rfl, hothers⟩ := List.map_eq_cons_iff.mp harguments
    obtain ⟨size, none, rfl, -, hnone⟩ := List.map_eq_cons_iff.mp hothers
    obtain rfl := List.map_eq_nil_iff.mp hnone
    apply isArgument_of_argumentChars hmark hquote hmem hchars
    rw [← hunquote, unquote_ofList, String.toList_ofList]
  rw [← isArgument_quoted_iff hquote]
  constructor
  · constructor
    · exact hkeeps
    · intro hargument
      rw [hread hargument]
      rfl
  · intro hclosed hwhole
    exact hread ((isArgument_quoted_iff hquote).mpr ⟨hclosed, hwhole⟩)

/-- A family with spaces at its ends and a comma in brackets is kept. -/
theorem parseText_quotedFont_gill :
    (∀ c ∈ " Gill (Sans, MT) ".toList, isQuote c = false) ∧
      (RuleContext.parseText ⟨({} : Environment).provider, none⟩
        (quotedFont '"' " Gill (Sans, MT) ")).outcome
          = .ok (.plain (.font ⟨some " Gill (Sans, MT) ", 12, none⟩)) := by
  have hfree : ∀ c ∈ " Gill (Sans, MT) ".toList, isQuote c = false := by simp [isQuote]
  have hquote : isQuote '"' = true := rfl
  obtain ⟨hkept, -⟩ := parseText_quotedFont ⟨({} : Environment).provider, none⟩ hquote hfree
    (by decide +kernel)
  exact ⟨hfree, hkept.mpr ⟨by decide +kernel, by decide +kernel⟩⟩

/-- Of a family with a bare comma, the part behind the comma counts as an argument. -/
theorem outcome_parseText_quotedComma :
    isQuote '"' = true ∧ (∀ c ∈ "A,B".toList, isQuote c = false) ∧
      Text.sameLetters "A,B".toList Font.systemName.toList = false ∧
      (RuleContext.parseText ⟨({} : Environment).provider, none⟩ (quotedFont '"' "A,B")).outcome
        = .error (.argumentCount ⟨fontMark, some 2, some 3⟩) := by
  have hfree : ∀ c ∈ "A,B".toList, isQuote c = false := by simp [isQuote]
  have harguments : callArguments fontMark (quotedFont '"' "A,B") = ["\"A", "B\"", "12"] := by
    decide +kernel
  refine ⟨rfl, hfree, by decide +kernel, ?_⟩
  unfold parseText
  rw [body?_quotedFont]
  dsimp only
  rw [if_pos isCallOf_quotedFont, harguments]
  rfl

end RuleContext

end Stylesheet
