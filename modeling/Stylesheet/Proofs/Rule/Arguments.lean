import Stylesheet.Proofs.Lists
import Stylesheet.Proofs.Rule.Literal

/-!
# Arguments of calls

The arguments of a call such as `!!font(a, b)` are cut apart at the commas outside all brackets and
braces, and trimmed.  There is one way to cut a text at all of these commas.  So splitting undoes
joining, as long as the arguments close what they open and have no such commas of their own.
-/

namespace Stylesheet

namespace Literal

open Text

/-- How much deeper in brackets and braces a text ends than it starts. -/
def nesting (text : List Char) : Int :=
  text.countP (fun c => c == '(' || c == '\x7b') - text.countP (fun c => c == ')' || c == '\x7d')

/-- The number of commas of a text outside all brackets, given the depth at which it starts. -/
def commasFrom (depth : Int) (text : List Char) : Nat :=
  (List.range text.length).countP fun place =>
    text[place]? = some ',' ∧ depth + nesting (text.take place) = 0

/-- The number of commas of a text outside all brackets. -/
def outerCommas (text : List Char) : Nat :=
  commasFrom 0 text

theorem nesting_append (text rest : List Char) :
    nesting (text ++ rest) = nesting text + nesting rest := by
  simp only [nesting, List.countP_append]
  omega

theorem depthAfter_eq (depth : Int) (c : Char) : depthAfter depth c = depth + nesting [c] := by
  unfold depthAfter nesting
  by_cases hopens : c = '(' ∨ c = '\x7b'
  · rw [if_pos hopens]
    rcases hopens with rfl | rfl <;> simp
  · rw [if_neg hopens]
    by_cases hcloses : c = ')' ∨ c = '\x7d'
    · rw [if_pos hcloses]
      rcases hcloses with rfl | rfl <;> simp <;> omega
    · rw [if_neg hcloses]
      rw [not_or] at hopens hcloses
      simp [hopens, hcloses]

theorem nesting_cons (c : Char) (text : List Char) :
    nesting (c :: text) = nesting [c] + nesting text :=
  nesting_append [c] text

/-- A comma at the start counts if the text starts outside all brackets. -/
theorem commasFrom_cons (depth : Int) (c : Char) (text : List Char) :
    commasFrom depth (c :: text)
      = (if c = ',' ∧ depth = 0 then 1 else 0) + commasFrom (depthAfter depth c) text := by
  unfold commasFrom
  rw [List.length_cons, List.range_succ_eq_map, List.countP_cons, List.countP_map, Nat.add_comm]
  congr 1
  · have hstart : nesting ([] : List Char) = 0 := rfl
    simp only [List.getElem?_cons_zero, Option.some.injEq, List.take_zero, hstart, Int.add_zero,
      decide_eq_true_eq]
  · apply List.countP_congr
    intro place _
    have hdepth : depth + nesting (c :: text.take place)
        = depthAfter depth c + nesting (text.take place) := by
      rw [depthAfter_eq, nesting_cons, Int.add_assoc]
    simp only [Function.comp_apply, List.getElem?_cons_succ, List.take_succ_cons, hdepth]

/-- `Cuts depth text pieces`: a text that starts at a depth is cut at all its commas outside
brackets. -/
inductive Cuts : Int → List Char → List (List Char) → Prop where
  | last {depth : Int} {piece : List Char} (hwhole : commasFrom depth piece = 0) :
      Cuts depth piece [piece]
  | cut {depth : Int} {piece rest : List Char} {pieces : List (List Char)}
      (hwhole : commasFrom depth piece = 0) (hclosed : depth + nesting piece = 0)
      (hrest : Cuts 0 rest pieces) : Cuts depth (piece ++ ',' :: rest) (piece :: pieces)

variable {depth : Int} {text piece rest : List Char} {pieces : List (List Char)}

theorem commasFrom_cons_eq_zero_iff {c : Char} :
    commasFrom depth (c :: text) = 0 ↔
      ¬ (c = ',' ∧ depth = 0) ∧ commasFrom (depthAfter depth c) text = 0 := by
  rw [commasFrom_cons]
  by_cases hcomma : c = ',' ∧ depth = 0 <;> simp [hcomma]

/-- A text without such commas is not split. -/
theorem splitAtDepth_of_whole (hwhole : commasFrom depth text = 0) :
    splitAtDepth depth text = (text, []) := by
  induction text generalizing depth with
  | nil => rfl
  | cons c text ih =>
      obtain ⟨hcomma, hwhole⟩ := commasFrom_cons_eq_zero_iff.mp hwhole
      rw [splitAtDepth, if_neg hcomma, ih hwhole]

/-- The first piece goes up to the first such comma. -/
theorem splitAtDepth_append_cons (hwhole : commasFrom depth piece = 0)
    (hclosed : depth + nesting piece = 0) (rest : List Char) :
    splitAtDepth depth (piece ++ ',' :: rest)
      = (piece, (splitAtDepth 0 rest).1 :: (splitAtDepth 0 rest).2) := by
  induction piece generalizing depth with
  | nil =>
      obtain rfl : depth = 0 := by simpa [nesting] using hclosed
      rw [List.nil_append, splitAtDepth, if_pos ⟨rfl, rfl⟩]
  | cons c piece ih =>
      obtain ⟨hcomma, hwhole⟩ := commasFrom_cons_eq_zero_iff.mp hwhole
      rw [nesting_cons, ← Int.add_assoc, ← depthAfter_eq] at hclosed
      rw [List.cons_append, splitAtDepth, if_neg hcomma, ih hwhole hclosed]

/-- Splitting gives the pieces of the one way to cut a text. -/
theorem Cuts.splitAtDepth_eq (hcuts : Cuts depth text pieces) :
    (splitAtDepth depth text).1 :: (splitAtDepth depth text).2 = pieces := by
  induction hcuts with
  | last hwhole => rw [splitAtDepth_of_whole hwhole]
  | cut hwhole hclosed hrest ih => rw [splitAtDepth_append_cons hwhole hclosed, ih]

theorem Cuts.cons {c : Char} (hcomma : ¬ (c = ',' ∧ depth = 0))
    (hcuts : Cuts (depthAfter depth c) text (piece :: pieces)) :
    Cuts depth (c :: text) ((c :: piece) :: pieces) := by
  cases hcuts with
  | last hwhole => exact .last (commasFrom_cons_eq_zero_iff.mpr ⟨hcomma, hwhole⟩)
  | cut hwhole hclosed hrest =>
      refine .cut (commasFrom_cons_eq_zero_iff.mpr ⟨hcomma, hwhole⟩) ?_ hrest
      rwa [nesting_cons, ← Int.add_assoc, ← depthAfter_eq]

/-- Every text can be cut. -/
theorem cuts_splitAtDepth (depth : Int) (text : List Char) :
    Cuts depth text ((splitAtDepth depth text).1 :: (splitAtDepth depth text).2) := by
  induction text generalizing depth with
  | nil => exact .last rfl
  | cons c text ih =>
      rw [splitAtDepth]
      by_cases hcomma : c = ',' ∧ depth = 0
      · obtain ⟨rfl, rfl⟩ := hcomma
        have hcut : Cuts 0 ([] ++ ',' :: text) ([] :: _) := .cut rfl rfl (ih 0)
        exact hcut
      · rw [if_neg hcomma]
        exact .cons hcomma (ih (depthAfter depth c))

theorem Cuts.ne_nil (hcuts : Cuts depth text pieces) : pieces ≠ [] := by
  cases hcuts <;> exact List.cons_ne_nil _ _

/-- Pieces joined by commas are the text that was cut. -/
theorem Cuts.intercalate_eq (hcuts : Cuts depth text pieces) : [','].intercalate pieces = text := by
  induction hcuts with
  | last hwhole => exact List.intercalate_singleton
  | @cut depth piece rest pieces hwhole hclosed hrest ih =>
      obtain ⟨next, more, rfl⟩ := List.exists_cons_of_ne_nil hrest.ne_nil
      rw [List.intercalate_cons_cons, ih, List.append_assoc]
      rfl

/-- There is a piece more than there are commas to cut at. -/
theorem length_splitAtDepth (depth : Int) (text : List Char) :
    (splitAtDepth depth text).2.length = commasFrom depth text := by
  induction text generalizing depth with
  | nil => rfl
  | cons c text ih =>
      rw [splitAtDepth, commasFrom_cons]
      by_cases hcomma : c = ',' ∧ depth = 0
      · obtain ⟨rfl, rfl⟩ := hcomma
        show (splitAtDepth 0 text).2.length + 1 = 1 + commasFrom (depthAfter 0 ',') text
        rw [ih, Nat.add_comm]
        rfl
      · rw [if_neg hcomma, if_neg hcomma, Nat.zero_add, ih]

theorem Cuts.length_eq (hcuts : Cuts depth text pieces) :
    pieces.length = commasFrom depth text + 1 := by
  rw [← hcuts.splitAtDepth_eq, List.length_cons, length_splitAtDepth]

/-- `Pads argument piece`: a piece of a text is an argument with white space around it. -/
def Pads (argument piece : List Char) : Prop :=
  ∃ before after, (∀ c ∈ before, isBlank c = true) ∧ (∀ c ∈ after, isBlank c = true) ∧
    piece = before ++ argument ++ after

theorem commasFrom_append (depth : Int) (text rest : List Char) :
    commasFrom depth (text ++ rest)
      = commasFrom depth text + commasFrom (depth + nesting text) rest := by
  induction text generalizing depth with
  | nil =>
      have hstart : nesting ([] : List Char) = 0 := rfl
      rw [hstart, Int.add_zero]
      exact (Nat.zero_add _).symm
  | cons c text ih =>
      rw [List.cons_append, commasFrom_cons, commasFrom_cons, ih, nesting_cons, ← Int.add_assoc,
        ← depthAfter_eq, Nat.add_assoc]

theorem commasFrom_eq_zero (depth : Int) (htext : ',' ∉ text) : commasFrom depth text = 0 := by
  refine List.countP_eq_zero.mpr fun place _ hcomma => ?_
  obtain ⟨hcomma, -⟩ := of_decide_eq_true hcomma
  exact htext (List.mem_of_getElem? hcomma)

theorem nesting_eq_zero (htext : ∀ c ∈ text, depthAfter 0 c = 0) : nesting text = 0 := by
  induction text with
  | nil => rfl
  | cons c rest ih =>
      obtain ⟨hc, hrest⟩ := List.forall_mem_cons.mp htext
      rw [depthAfter_eq, Int.zero_add] at hc
      rw [nesting_cons, hc, ih hrest, Int.add_zero]

theorem commasFrom_of_blank (depth : Int) {blanks : List Char}
    (hblanks : ∀ c ∈ blanks, isBlank c = true) : commasFrom depth blanks = 0 :=
  commasFrom_eq_zero depth fun hcomma => absurd (hblanks ',' hcomma) (by decide)

theorem nesting_of_blank {blanks : List Char} (hblanks : ∀ c ∈ blanks, isBlank c = true) :
    nesting blanks = 0 := by
  refine nesting_eq_zero fun c hc => ?_
  have hblank := hblanks c hc
  have hopens : ¬ (c = '(' ∨ c = '\x7b') := by
    rintro (rfl | rfl) <;> exact absurd hblank (by decide)
  have hcloses : ¬ (c = ')' ∨ c = '\x7d') := by
    rintro (rfl | rfl) <;> exact absurd hblank (by decide)
  rw [depthAfter, if_neg hopens, if_neg hcloses]

/-- White space around an argument changes neither its nesting nor its commas. -/
theorem Pads.nesting_eq {argument : List Char} (hpads : Pads argument piece) :
    nesting piece = nesting argument := by
  obtain ⟨before, after, hbefore, hafter, rfl⟩ := hpads
  rw [nesting_append, nesting_append, nesting_of_blank hbefore, nesting_of_blank hafter,
    Int.zero_add, Int.add_zero]

theorem Pads.outerCommas_eq {argument : List Char} (hpads : Pads argument piece) :
    outerCommas piece = outerCommas argument := by
  obtain ⟨before, after, hbefore, hafter, rfl⟩ := hpads
  unfold outerCommas
  rw [commasFrom_append, commasFrom_append, commasFrom_of_blank _ hbefore,
    commasFrom_of_blank _ hafter, nesting_of_blank hbefore, Nat.zero_add, Nat.add_zero,
    Int.add_zero]

theorem Pads.trim_eq {argument : List Char} (hpads : Pads argument piece) :
    trim piece = trim argument := by
  obtain ⟨before, after, hbefore, hafter, rfl⟩ := hpads
  exact trim_of_blanks hbefore hafter argument

theorem pads_trim (piece : List Char) : Pads (trim piece) piece :=
  exists_blanks_trim piece

theorem pads_self (piece : List Char) : Pads piece piece :=
  ⟨[], [], List.forall_mem_nil _, List.forall_mem_nil _, (List.append_nil _).symm⟩

/-- A text that can stand as an argument: trimmed, with brackets that close again and without
commas outside them. -/
structure IsArgument (text : List Char) : Prop where
  trimmed : trim text = text
  closed : nesting text = 0
  whole : outerCommas text = 0

/-- A text without white space, commas and brackets can. -/
theorem isArgument_of_forall (hblank : ∀ c ∈ text, isBlank c = false) (hcomma : ',' ∉ text)
    (hbrackets : ∀ c ∈ text, depthAfter 0 c = 0) : IsArgument text where
  trimmed := trim_eq_self_of_forall hblank
  closed := nesting_eq_zero hbrackets
  whole := commasFrom_eq_zero 0 hcomma

/-- Closed pieces without commas of their own are cut apart again where they were joined. -/
theorem cuts_intercalate (hne : pieces ≠ [])
    (hpieces : ∀ piece ∈ pieces, nesting piece = 0 ∧ outerCommas piece = 0) :
    Cuts 0 ([','].intercalate pieces) pieces := by
  induction pieces with
  | nil => exact absurd rfl hne
  | cons piece pieces ih =>
      obtain ⟨⟨hclosed, hwhole⟩, hpieces⟩ := List.forall_mem_cons.mp hpieces
      cases pieces with
      | nil =>
          rw [List.intercalate_singleton]
          exact .last hwhole
      | cons next more =>
          rw [List.intercalate_cons_cons, List.append_assoc]
          refine .cut hwhole ?_ (ih (List.cons_ne_nil _ _) hpieces)
          rw [hclosed, Int.add_zero]

/-- Splitting undoes joining. -/
theorem splitArguments_of_cuts (hcuts : Cuts 0 text pieces) :
    splitArguments text = pieces.map trim := by
  rw [← hcuts.splitAtDepth_eq]
  rfl

/-- What stands between the parentheses of a call that starts with its mark. -/
theorem callBody_of_call {mark : List Char} (hmark : ∀ c ∈ mark.head?, isBlank c = false)
    (body : List Char) : callBody mark.length (mark ++ '(' :: body ++ [')']) = body := by
  have htrim : trim (mark ++ '(' :: body ++ [')']) = mark ++ '(' :: body ++ [')'] := by
    refine trim_eq_self ?_ fun c hc => ?_
    · cases mark with
      | nil =>
          rintro c hc
          cases hc
          decide
      | cons first more => exact hmark
    · rw [List.getLast?_concat] at hc
      cases hc
      decide
  have hcall : trim ('(' :: (body ++ [')'])) = '(' :: (body ++ [')']) := by
    refine trim_eq_self (fun c hc => ?_) fun c hc => ?_
    · cases hc
      decide
    · rw [← List.cons_append, List.getLast?_concat] at hc
      cases hc
      decide
  have hlast : ('(' :: (body ++ [')'])).getLast? = some ')' := by
    rw [← List.cons_append]
    exact List.getLast?_concat
  rw [callBody, htrim, List.append_assoc, List.drop_left, List.cons_append, hcall, dropParens,
    if_pos ⟨rfl, hlast⟩]
  exact List.dropLast_concat

theorem argumentChars_of_cuts {mark : List Char} (hbody : trim text ≠ [])
    (hcall : callBody mark.length rest = text) (hcuts : Cuts 0 text pieces) :
    argumentChars mark rest = pieces.map trim := by
  unfold argumentChars
  rw [hcall]
  simp only [List.isEmpty_iff, if_neg hbody, splitArguments_of_cuts hcuts]

/-- Arguments of which there is more than an empty one are not blank when they are joined. -/
theorem trim_intercalate_ne_nil {arguments : List (List Char)} (hne : arguments ≠ [])
    (hempty : arguments ≠ [[]]) (harguments : ∀ argument ∈ arguments, trim argument = argument)
    (hpads : List.Forall₂ Pads arguments pieces) : trim ([','].intercalate pieces) ≠ [] := by
  intro hblank
  cases hpads with
  | nil => exact hne rfl
  | @cons argument piece arguments pieces hpad hpads =>
      cases hpads with
      | nil =>
          rw [List.intercalate_singleton, hpad.trim_eq,
            harguments argument List.mem_cons_self] at hblank
          exact hempty (congrArg (fun argument => [argument]) hblank)
      | @cons _ next _ more =>
          -- the comma between the first two pieces is no white space
          obtain ⟨before, after, hbefore, hafter, hsplit⟩ :=
            exists_blanks_trim ([','].intercalate (piece :: next :: more))
          rw [hblank, List.append_nil] at hsplit
          have hcomma : ',' ∈ before ++ after := by
            rw [← hsplit, List.intercalate_cons_cons]
            simp
          rcases List.mem_append.mp hcomma with hcomma | hcomma
          · exact absurd (hbefore _ hcomma) (by decide)
          · exact absurd (hafter _ hcomma) (by decide)

theorem forall₂_pads_map_trim (pieces : List (List Char)) :
    List.Forall₂ Pads (pieces.map trim) pieces := by
  induction pieces with
  | nil => exact .nil
  | cons piece pieces ih => exact .cons (pads_trim piece) ih

theorem map_trim_eq {arguments : List (List Char)}
    (harguments : ∀ argument ∈ arguments, trim argument = argument)
    (hpads : List.Forall₂ Pads arguments pieces) : pieces.map trim = arguments := by
  induction hpads with
  | nil => rfl
  | cons hpad _ ih =>
      obtain ⟨hargument, harguments⟩ := List.forall_mem_cons.mp harguments
      rw [List.map_cons, hpad.trim_eq, hargument, ih harguments]

theorem head?_mark {mark : String} (hmark : mark = fontMark ∨ mark = colorMark) :
    ∀ c ∈ mark.toList.head?, isBlank c = false := by
  intro c hc
  obtain rfl : '!' = c := by
    rcases hmark with rfl | rfl <;> exact Option.some.inj hc
  decide

/-- The body of a call without arguments is blank, and any other is cut into its arguments. -/
theorem argumentChars_cases (mark text : List Char) :
    (trim (callBody mark.length text) = [] ∧ argumentChars mark text = []) ∨
      trim (callBody mark.length text) ≠ [] ∧
        ∃ pieces, Cuts 0 (callBody mark.length text) pieces ∧
          argumentChars mark text = pieces.map trim := by
  by_cases hblank : trim (callBody mark.length text) = []
  · refine .inl ⟨hblank, ?_⟩
    unfold argumentChars
    exact if_pos (List.isEmpty_iff.mpr hblank)
  · have hcuts := cuts_splitAtDepth 0 (callBody mark.length text)
    exact .inr ⟨hblank, _, hcuts, argumentChars_of_cuts hblank rfl hcuts⟩

/-- A call of arguments that are joined with commas has these arguments. -/
theorem argumentChars_of_join {mark : List Char} (hmark : ∀ c ∈ mark.head?, isBlank c = false)
    {arguments : List (List Char)} (hne : arguments ≠ []) (hempty : arguments ≠ [[]])
    (harguments : ∀ argument ∈ arguments, IsArgument argument)
    (hpads : List.Forall₂ Pads arguments pieces) :
    argumentChars mark (mark ++ '(' :: [','].intercalate pieces ++ [')']) = arguments := by
  have htrimmed : ∀ argument ∈ arguments, trim argument = argument :=
    fun argument hargument => (harguments argument hargument).trimmed
  have hpieces : ∀ piece ∈ pieces, nesting piece = 0 ∧ outerCommas piece = 0 := by
    intro piece hpiece
    obtain ⟨argument, hargument, hpad⟩ : ∃ argument ∈ arguments, Pads argument piece :=
      exists_mem_of_forall₂ hpads.flip hpiece
    obtain ⟨-, hclosed, hwhole⟩ := harguments argument hargument
    exact ⟨hpad.nesting_eq.trans hclosed, hpad.outerCommas_eq.trans hwhole⟩
  have hpiecesNe : pieces ≠ [] := by
    rintro rfl
    cases hpads
    exact hne rfl
  have hcuts := cuts_intercalate hpiecesNe hpieces
  rw [argumentChars_of_cuts (trim_intercalate_ne_nil hne hempty htrimmed hpads)
    (callBody_of_call hmark _) hcuts, map_trim_eq htrimmed hpads]

theorem argumentChars_of_single {mark argument : List Char}
    (hmark : ∀ c ∈ mark.head?, isBlank c = false) (hne : argument ≠ [])
    (hargument : IsArgument argument) :
    argumentChars mark (mark ++ '(' :: argument ++ [')']) = [argument] := by
  have hjoin := argumentChars_of_join hmark (List.cons_ne_nil argument []) (by simpa using hne)
    (List.forall_mem_singleton.mpr hargument) (.cons (pads_self argument) .nil)
  rwa [List.intercalate_singleton] at hjoin

/-- Splitting the arguments of a font or a colour undoes joining them with commas, whatever white
space is put around these.  And of any text, the body is split at all commas outside brackets, so
that its arguments joined again are the body up to white space around them. -/
theorem callArguments_inverts_join {mark : String} (hmark : mark = fontMark ∨ mark = colorMark) :
    (∀ arguments pieces : List String, arguments ≠ [] → arguments ≠ [""] →
        (∀ argument ∈ arguments, IsArgument argument.toList) →
        List.Forall₂ (fun argument piece => Pads argument.toList piece.toList) arguments pieces →
        callArguments mark (mark ++ "(" ++ ",".intercalate pieces ++ ")") = arguments) ∧
      ∀ text : String, let body := callBody mark.toList.length text.toList
        (callArguments mark text).length = (if trim body = [] then 0 else outerCommas body + 1) ∧
          (trim body = [] ∨ ∃ pieces, Cuts 0 body pieces ∧ [','].intercalate pieces = body ∧
            List.Forall₂ (fun argument piece => Pads argument.toList piece)
              (callArguments mark text) pieces) := by
  constructor
  · intro arguments pieces hne hempty harguments hpads
    have htext : (mark ++ "(" ++ ",".intercalate pieces ++ ")").toList
        = mark.toList ++ '(' :: [','].intercalate (pieces.map String.toList) ++ [')'] := by
      simp [String.toList_intercalate]
    have hchars : argumentChars mark.toList (mark ++ "(" ++ ",".intercalate pieces ++ ")").toList
        = arguments.map String.toList := by
      rw [htext]
      refine argumentChars_of_join (head?_mark hmark) (by simpa using hne) ?_
        (List.forall_mem_map.mpr harguments) (List.forall₂_map_left_iff.mpr
          (List.forall₂_map_right_iff.mpr hpads))
      intro hone
      apply hempty
      cases arguments with
      | nil => cases hone
      | cons argument rest => simpa using hone
    rw [callArguments, hchars]
    simp
  · intro text body
    have hlength : (callArguments mark text).length
        = (argumentChars mark.toList text.toList).length := List.length_map _
    rw [hlength]
    rcases argumentChars_cases mark.toList text.toList with
      ⟨hblank, hnone⟩ | ⟨hbody, pieces, hcuts, hpieces⟩
    · rw [if_pos hblank, hnone]
      exact ⟨rfl, .inl hblank⟩
    · rw [if_neg hbody, hpieces, List.length_map, hcuts.length_eq]
      refine ⟨rfl, .inr ⟨pieces, hcuts, hcuts.intercalate_eq, ?_⟩⟩
      rw [callArguments, hpieces, List.forall₂_map_left_iff]
      simpa using forall₂_pads_map_trim pieces

/-- A family with brackets and a size with a comma in brackets, spaced out. -/
theorem callArguments_inverts_join_spaced :
    (∀ argument ∈ ["Gill (Sans)", "$\x7bmax(12, 14)\x7d"], IsArgument argument.toList) ∧
      callArguments fontMark (fontMark ++ "(" ++
        ",".intercalate ["Gill (Sans)\t", " $\x7bmax(12, 14)\x7d "] ++ ")")
          = ["Gill (Sans)", "$\x7bmax(12, 14)\x7d"] := by
  have harguments : ∀ argument ∈ ["Gill (Sans)", "$\x7bmax(12, 14)\x7d"],
      IsArgument argument.toList := by
    intro argument hargument
    rcases List.mem_pair.mp hargument with rfl | rfl
    · exact ⟨by decide, by decide, by decide⟩
    · exact ⟨by decide, by decide, by decide⟩
  have hpads : List.Forall₂ (fun argument piece : String => Pads argument.toList piece.toList)
      ["Gill (Sans)", "$\x7bmax(12, 14)\x7d"] ["Gill (Sans)\t", " $\x7bmax(12, 14)\x7d "] := by
    have htab : ∀ c ∈ ['\t'], isBlank c = true := List.forall_mem_singleton.mpr (by decide)
    have hspace : ∀ c ∈ [' '], isBlank c = true := List.forall_mem_singleton.mpr (by decide)
    exact .cons ⟨[], ['\t'], List.forall_mem_nil _, htab, rfl⟩
      (.cons ⟨[' '], [' '], hspace, hspace, rfl⟩ .nil)
  have hempty : ["Gill (Sans)", "$\x7bmax(12, 14)\x7d"] ≠ [""] := by simp
  exact ⟨harguments, (callArguments_inverts_join (.inl rfl)).1 _ _ (List.cons_ne_nil _ _) hempty
    harguments hpads⟩

end Literal

end Stylesheet
