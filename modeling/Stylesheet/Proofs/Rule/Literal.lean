import Mathlib.Data.List.DropRight
import Mathlib.Data.List.Infix
import Stylesheet.Rule.Literal

/-!
# Literals as they are written

Trimming takes away all white space at the two ends of a text, so that trimming again changes
nothing.  An expression literal is `${…}` between white space, and its body what stands between
the braces, without the white space around it.
-/

namespace Stylesheet

namespace Text

theorem trimEnd_cons_of_not_blank {c : Char} (hc : isBlank c = false) (rest : List Char) :
    trimEnd (c :: rest) = c :: trimEnd rest := by
  rw [trimEnd]
  cases trimEnd rest <;> simp [hc]

theorem trimEnd_trimEnd (text : List Char) : trimEnd (trimEnd text) = trimEnd text := by
  induction text with
  | nil => rfl
  | cons c rest ih =>
      rw [trimEnd]
      cases hrest : trimEnd rest with
      | nil =>
          by_cases hc : isBlank c = true <;> simp [hc, trimEnd]
      | cons kept keptRest =>
          rw [hrest] at ih
          simp only
          rw [trimEnd, ih]

/-- Trimming the end leaves the start as it is, unless nothing is left. -/
theorem trimStart_trimEnd_trimStart (text : List Char) :
    trimStart (trimEnd (trimStart text)) = trimEnd (trimStart text) := by
  have hstart := List.head?_dropWhile_not isBlank text
  rw [← trimStart] at hstart
  cases htext : trimStart text with
  | nil => rfl
  | cons c rest =>
      rw [htext, List.head?_cons] at hstart
      have hc : isBlank c = false := Bool.eq_false_iff.mpr (by simpa using hstart)
      rw [trimEnd_cons_of_not_blank hc, trimStart, List.dropWhile_cons_of_neg (by simp [hc])]

theorem trim_trim (text : List Char) : trim (trim text) = trim text := by
  rw [trim, trim, trimStart_trimEnd_trimStart, trimEnd_trimEnd]

/-- White space in front makes no difference to trimming the start. -/
theorem trimStart_append_of_blank {blanks : List Char} (hblanks : ∀ c ∈ blanks, isBlank c = true)
    (text : List Char) : trimStart (blanks ++ text) = trimStart text :=
  List.dropWhile_append_of_pos hblanks

theorem trimEnd_eq_nil_of_blank {blanks : List Char} (hblanks : ∀ c ∈ blanks, isBlank c = true) :
    trimEnd blanks = [] := by
  induction blanks with
  | nil => rfl
  | cons c rest ih =>
      obtain ⟨hc, hrest⟩ := List.forall_mem_cons.mp hblanks
      rw [trimEnd, ih hrest]
      exact if_pos hc

/-- White space at the end makes no difference to trimming the end. -/
theorem trimEnd_append_of_blank (text : List Char) {blanks : List Char}
    (hblanks : ∀ c ∈ blanks, isBlank c = true) : trimEnd (text ++ blanks) = trimEnd text := by
  induction text with
  | nil => exact trimEnd_eq_nil_of_blank hblanks
  | cons c rest ih => rw [List.cons_append, trimEnd, trimEnd, ih]

theorem trim_append_of_blank (text : List Char) {blanks : List Char}
    (hblanks : ∀ c ∈ blanks, isBlank c = true) : trim (text ++ blanks) = trim text := by
  rw [trim, trim, trimStart, trimStart, List.dropWhile_append]
  split
  · next hnone =>
      have hnothing : blanks.dropWhile isBlank = [] := List.dropWhile_eq_nil_iff.mpr hblanks
      rw [hnothing, List.isEmpty_iff.mp hnone]
  · exact trimEnd_append_of_blank _ hblanks

/-- What stands between white space is trimmed as it stands alone. -/
theorem trim_of_blanks {before after : List Char} (hbefore : ∀ c ∈ before, isBlank c = true)
    (hafter : ∀ c ∈ after, isBlank c = true) (text : List Char) :
    trim (before ++ text ++ after) = trim text := by
  rw [trim_append_of_blank _ hafter, trim, trimStart_append_of_blank hbefore, trim]

/-- A text is its trimmed form between white space. -/
theorem exists_trimEnd_append (text : List Char) :
    ∃ after, (∀ c ∈ after, isBlank c = true) ∧ text = trimEnd text ++ after := by
  induction text with
  | nil => exact ⟨[], List.forall_mem_nil _, rfl⟩
  | cons c rest ih =>
      obtain ⟨after, hafter, hrest⟩ := ih
      rw [trimEnd]
      split
      · next hnil =>
          rw [hnil, List.nil_append] at hrest
          subst hrest
          by_cases hc : isBlank c = true
          · exact ⟨c :: rest, List.forall_mem_cons.mpr ⟨hc, hafter⟩, by rw [if_pos hc]; rfl⟩
          · exact ⟨rest, hafter, by rw [if_neg hc]; rfl⟩
      · next kept hkept => exact ⟨after, hafter, by rw [List.cons_append, ← hrest]⟩

theorem exists_blanks_trim (text : List Char) :
    ∃ before after, (∀ c ∈ before, isBlank c = true) ∧ (∀ c ∈ after, isBlank c = true) ∧
      text = before ++ trim text ++ after := by
  obtain ⟨after, hafter, hsplit⟩ := exists_trimEnd_append (trimStart text)
  refine ⟨text.takeWhile isBlank, after, fun c hc => List.mem_takeWhile_imp hc, hafter, ?_⟩
  rw [trim, List.append_assoc, ← hsplit]
  exact List.takeWhile_append_dropWhile.symm

theorem trimEnd_eq_self {text : List Char} (hlast : ∀ c ∈ text.getLast?, isBlank c = false) :
    trimEnd text = text := by
  induction text with
  | nil => rfl
  | cons c rest ih =>
      rw [trimEnd]
      cases rest with
      | nil =>
          have hc : isBlank c = false := hlast c rfl
          simp [trimEnd, hc]
      | cons d more =>
          rw [ih fun e he => hlast e (by rwa [List.getLast?_cons_cons])]

/-- A text without white space at its ends is trimmed. -/
theorem trim_eq_self {text : List Char} (hfirst : ∀ c ∈ text.head?, isBlank c = false)
    (hlast : ∀ c ∈ text.getLast?, isBlank c = false) : trim text = text := by
  have hstart : trimStart text = text := by
    cases text with
    | nil => rfl
    | cons c rest => exact List.dropWhile_cons_of_neg (by simp [hfirst c rfl])
  rw [trim, hstart, trimEnd_eq_self hlast]

theorem trim_eq_self_of_forall {text : List Char} (htext : ∀ c ∈ text, isBlank c = false) :
    trim text = text :=
  trim_eq_self (fun c hc => htext c (List.mem_of_mem_head? hc))
    fun c hc => htext c (List.mem_of_getLast? hc)

end Text

namespace Literal

open Text

/-- A piece occurs in a text when the text has it as an infix. -/
theorem mentions_iff_isInfix {piece text : List Char} :
    mentions piece text = true ↔ piece <:+: text := by
  induction text with
  | nil => simp [mentions]
  | cons c rest ih => rw [mentions, Bool.or_eq_true, List.isPrefixOf_iff_prefix, ih,
      List.infix_cons_iff]

theorem bodyChars?_eq_some_iff {text body : List Char} :
    bodyChars? text = some body ↔
      ∃ inner, trim text = '$' :: '\x7b' :: (inner ++ ['\x7d']) ∧ body = trim inner := by
  unfold bodyChars?
  constructor
  · intro hbody
    split at hbody
    · next inner hinner =>
        split at hbody
        · next hlast =>
            cases hbody
            refine ⟨inner.dropLast, ?_, rfl⟩
            rw [hinner, List.dropLast_append_getLast? '\x7d' hlast]
        · cases hbody
    · cases hbody
  · rintro ⟨inner, htext, rfl⟩
    simp [htext]

/-- An expression literal is a text in `${…}`, and its body is what stands inside, both without
the white space around them. -/
theorem body?_eq_some_iff {text body : String} :
    body? text = some body ↔
      ∃ inner, trim text.toList = '$' :: '\x7b' :: (inner ++ ['\x7d']) ∧
        body.toList = trim inner := by
  unfold body?
  rw [Option.map_eq_some_iff]
  constructor
  · rintro ⟨chars, hchars, rfl⟩
    obtain ⟨inner, htext, rfl⟩ := bodyChars?_eq_some_iff.mp hchars
    exact ⟨inner, htext, String.toList_ofList⟩
  · rintro ⟨inner, htext, hbody⟩
    refine ⟨body.toList, bodyChars?_eq_some_iff.mpr ⟨inner, htext, hbody⟩, ?_⟩
    exact String.ofList_toList

/-- A text that starts with neither white space nor a dollar sign is no expression literal. -/
theorem body?_eq_none {text : String} {c : Char} {rest : List Char} (htext : text.toList = c :: rest)
    (hblank : isBlank c = false) (hc : c ≠ '$') : body? text = none := by
  cases hbody : body? text with
  | none => rfl
  | some body =>
      obtain ⟨inner, htrim, -⟩ := body?_eq_some_iff.mp hbody
      rw [htext, trim, trimStart, List.dropWhile_cons_of_neg (by simp [hblank]),
        trimEnd_cons_of_not_blank hblank] at htrim
      exact absurd (List.head_eq_of_cons_eq htrim) hc

/-- No white space stands around the body of an expression literal. -/
theorem trim_body {text body : String} (hbody : body? text = some body) :
    trim body.toList = body.toList := by
  obtain ⟨inner, -, hinner⟩ := body?_eq_some_iff.mp hbody
  rw [hinner, trim_trim]

end Literal

end Stylesheet
