import Stylesheet.Proofs.Rule.Literal
import Stylesheet.Proofs.Rule.Parts

/-!
# What values hold under their kinds

The kind of a value and what it holds are found together, so a kind can be relied on: a string is
no literal, an expression is compiled from its own text, a font that names a family is not the
system font, and a colour has six or eight digits.  A conditional value has the kind of its first
leaf.
-/

namespace Stylesheet

open Logged

/-- `value.Fits kind`: a value without branches holds what its kind says. -/
inductive Value.Fits : Value → Kind → Prop where
  | undefined : Value.Fits .undefined .undefined
  | boolean (b : Bool) : Value.Fits (.plain (.boolean b)) .boolean
  | number (n : Number) : Value.Fits (.plain (.number n)) .number
  /-- A string is no literal. -/
  | string {s : String} (hbody : Literal.body? s = none)
      (hfont : Literal.isCallOf Literal.fontMark s = false)
      (hcolor : Literal.isCallOf Literal.colorMark s = false) :
      Value.Fits (.plain (.string s)) .string
  /-- The tree of an expression, or why it has none, is that of its own text, which has no white
  space around it. -/
  | expression {e : Expression} (htrim : Text.trim e.source.toList = e.source.toList)
      (htree : e.tree = Expr.ofText e.source) : Value.Fits (.expression e) .expression
  /-- A family is never the name of the system font, in whatever letters. -/
  | font {f : Font} (hfamily : ∀ family, f.family = some family →
      Text.sameLetters family.toList Font.systemName.toList = false) :
      Value.Fits (.plain (.font f)) .font
  | color {c : Color} (hdigits : c.hex.toList.all Color.isHexDigit = true)
      (hlength : c.hex.toList.length = 6 ∨ c.hex.toList.length = 8) :
      Value.Fits (.plain (.color c)) .color

namespace Color

theorem all_isHexDigit_expand {digits : List Char} (hdigits : digits.all isHexDigit = true) :
    (expand digits).all isHexDigit = true := by
  unfold expand
  split
  · simpa [List.all_eq_true, List.mem_flatMap] using hdigits
  · exact hdigits

/-- A colour that is read from a text has six or eight digits. -/
theorem fits_of_ofText? {text : String} {color : Color} (hcolor : ofText? text = some color) :
    (Value.plain (.color color)).Fits .color := by
  obtain ⟨full, hfull, rfl⟩ := Option.map_eq_some_iff.mp hcolor
  unfold digits? at hfull
  dsimp only at hfull
  split at hfull
  · next hvalid =>
      cases hfull
      obtain ⟨hdigits, hlength⟩ := hvalid
      apply Value.Fits.color
      · rw [String.toList_ofList]
        exact all_isHexDigit_expand hdigits
      · rwa [String.toList_ofList]
  · cases hfull

end Color

namespace RuleContext

variable {context : RuleContext}

/-- A font is named after a family unless that is the name of the system font. -/
theorem fits_fontOf (family : String) (size : Float) (kept : Option Query) :
    (Value.plain (.font (fontOf family size kept))).Fits .font := by
  apply Value.Fits.font
  intro name hname
  unfold fontOf at hname
  split at hname
  · cases hname
  · next hother =>
      cases hname
      exact Bool.eq_false_iff.mpr hother

/-- What a text is read as holds what its kind says. -/
theorem fits_of_parseText {text : String} {value : Value}
    (hvalue : (context.parseText text).outcome = .ok value) : value.Fits value.kind := by
  revert hvalue
  apply parseText_cases (motive := fun reading => reading.outcome = .ok value →
    value.Fits value.kind) context text
  case expression =>
    intro body hbody hvalue
    obtain ⟨e, he, hvalue⟩ := outcome_bind_eq_ok_iff.mp hvalue
    rw [Expression.outcome_compileReporting] at he
    cases he
    cases hvalue
    exact .expression (Literal.trim_body hbody) rfl
  case font =>
    intro hbody hfont family size harguments hvalue
    obtain ⟨points, hpoints, hvalue⟩ := outcome_bind_eq_ok_iff.mp hvalue
    cases hvalue
    exact fits_fontOf _ points _
  case color =>
    intro hbody hfont hcolor argument harguments color hof hvalue
    cases hvalue
    exact Color.fits_of_ofText? hof
  case badColor =>
    intro hbody hfont hcolor argument harguments hof d hcode hvalue
    cases hvalue
    exact .color (by decide) (by decide)
  case string =>
    intro hbody hfont hcolor hvalue
    cases hvalue
    exact .string hbody hfont hcolor
  case fontCount => exact fun _ _ _ hvalue => nomatch hvalue
  case colorCount => exact fun _ _ _ _ hvalue => nomatch hvalue

theorem fits_of_parseScalar {scalar : Scalar} {value : Value}
    (hvalue : (context.parseScalar scalar).outcome = .ok value) : value.Fits value.kind := by
  cases scalar with
  | null =>
      cases hvalue
      exact .undefined
  | boolean b =>
      cases hvalue
      exact .boolean b
  | number n =>
      cases hvalue
      exact .number n
  | text s => exact fits_of_parseText hvalue

end RuleContext

/-- The kind of a value says what it holds: a value without branches holds what its kind says, the
branches have the conditions that are written with them, and the kind is that of the first leaf of
the node. -/
structure Value.Tagged (node : Node) (value : Value) : Prop where
  leaf : value.isConditional = false → value.Fits value.kind
  conditions : ∀ branch ∈ value.branches, ∃ body,
    Literal.body? branch.source = some body ∧ branch.condition = Expression.compile body
  first : node.firstLeaf.leafKind? = some value.kind

namespace Value

variable {context : RuleContext} {node : Node} {value : Value}

theorem fits_of_ofNode (hvalue : (ofNode context node).outcome = .ok value)
    (hplain : value.isConditional = false) : value.Fits value.kind := by
  cases node with
  | scalar scalar =>
      rw [ofNode] at hvalue
      exact RuleContext.fits_of_parseScalar hvalue
  | sequence items =>
      rw [ofNode] at hvalue
      cases hvalue
      exact .undefined
  | mapping pairs =>
      obtain ⟨written, hwritten, rfl⟩ := ofNode_mapping_eq_ok_iff.mp hvalue
      cases hplain

theorem exists_body_of_mem_branches (hvalue : (ofNode context node).outcome = .ok value)
    {branch : Branch Value} (hbranch : branch ∈ value.branches) :
    ∃ body, Literal.body? branch.source = some body ∧
      branch.condition = Expression.compile body := by
  cases value with
  | conditional kind stored =>
      obtain ⟨pairs, rfl, pair, -, hread⟩ := exists_readFrom_of_mem hvalue hbranch
      exact hread.condition
  | undefined | plain | expression => cases hbranch

theorem tagged_of_ofNode (hvalue : (ofNode context node).outcome = .ok value) :
    value.Tagged node :=
  ⟨fits_of_ofNode hvalue, fun _ => exists_body_of_mem_branches hvalue, leafKind?_firstLeaf hvalue⟩

/-- All parts of a value hold what their kinds say. -/
theorem exists_tagged_of_hasPart {part : Value} (hvalue : (ofNode context node).outcome = .ok value)
    (hpart : value.HasPart part) :
    ∃ inner, node.Reaches inner ∧ (ofNode context inner).outcome = .ok part ∧
      part.Tagged inner := by
  obtain ⟨inner, hreaches, hinner⟩ := exists_reaches_of_hasPart hvalue hpart
  exact ⟨inner, hreaches, hinner, tagged_of_ofNode hinner⟩

end Value

end Stylesheet
