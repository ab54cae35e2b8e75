import Stylesheet.Proofs.Rule.Equality
import Stylesheet.Proofs.Sheet.FontSize
import Stylesheet.Proofs.Sheet.Text

/-!
# Sheets that equal themselves

Loading a text twice gives sheets that are equal but for the rules in which a NaN was computed:
such a rule is not even equal to itself.  It is said which texts have one.
-/

namespace Stylesheet

open Logged

namespace Sheet

variable {provider : Provider}

/-- A sheet equals itself when each of its rules does. -/
theorem same_self_iff {sheet : Sheet} :
    sheet.same sheet = true ↔
      ∀ style name rule, sheet.rule? style name = some rule → rule.same rule = true := by
  rw [same, Table.agree_self_iff]
  simp only [Table.agree_self_iff, rule?_eq_some_iff_find?]
  constructor
  · rintro hself style name rule ⟨rules, hrules, hrule⟩
    exact hself style rules hrules name rule hrule
  · intro hself style rules hrules name rule hrule
    exact hself style name rule ⟨rules, hrules, hrule⟩

/-- A sheet equals itself when no NaN is computed for a part of what its rules are read from. -/
theorem same_self_ofNode_iff {root : Node} {sheet : Sheet}
    (hsheet : (ofNode provider root).outcome = .ok sheet) :
    sheet.same sheet = true ↔
      ∀ style name node, root.RuleSource style name node →
        ∀ part, node.Reaches part → ¬ part.ComputesNaN provider := by
  rw [same_self_iff]
  constructor
  · intro hself style name node hsource
    obtain ⟨rule, hnode, hrule⟩ := exists_rule_of_ruleSource hsheet hsource
    exact (Rule.same_self_iff hnode).mp (hself style name rule hrule)
  · intro hnumbers style name rule hrule
    obtain ⟨node, hsource, hnode⟩ := (rule?_eq_some_iff hsheet).mp hrule
    exact (Rule.same_self_iff hnode).mpr (hnumbers style name node hsource)

/-- If a text can be loaded, then loading it again gives an equal sheet. -/
def ReloadsSame (library : Yaml.Library) (provider : Provider) (text : String) : Prop :=
  ∀ sheet, (loadWith library provider text).outcome = .ok sheet →
    ∃ again, (loadWith library provider text).outcome = .ok again ∧ sheet.same again = true

/-- A text can be loaded, and a rule of the sheet has a part for which a NaN is computed. -/
inductive LoadsNaN (library : Yaml.Library) (provider : Provider) (text : String) : Prop where
  | rule {root node part : Node} {sheet : Sheet} {style name : String}
      (hread : library.read text = .ok (some root))
      (hsheet : (loadWith library provider text).outcome = .ok sheet)
      (hsource : root.RuleSource style name node) (hpart : node.Reaches part)
      (hnan : part.ComputesNaN provider)

/-- Loading a text again gives an equal sheet, except for the texts that have a rule with a computed
NaN: a number of the document that is one, or a font with a size that evaluates to one which is no
lasting answer of the provider. -/
theorem reloadsSame_iff_not_loadsNaN (library : Yaml.Library) (provider : Provider)
    (text : String) : ReloadsSame library provider text ↔ ¬ LoadsNaN library provider text := by
  constructor
  · rintro hreloads ⟨hread, hload, hsource, hpart, hnan⟩
    obtain ⟨root, hroot, -, hsheet⟩ := loadWith_eq_ok_iff.mp hload
    cases hread.symm.trans hroot
    obtain ⟨again, hagain, hsame⟩ := hreloads _ hload
    cases hload.symm.trans hagain
    exact (same_self_ofNode_iff hsheet).mp hsame _ _ _ hsource _ hpart hnan
  · intro hnumbers sheet hload
    obtain ⟨root, hread, -, hsheet⟩ := loadWith_eq_ok_iff.mp hload
    refine ⟨sheet, hload, (same_self_ofNode_iff hsheet).mpr ?_⟩
    intro style name node hsource part hpart hnan
    exact hnumbers ⟨hread, hload, hsource, hpart, hnan⟩

/-- A text with a font whose size is the greater of a width and one. -/
def leastOneText : String := "card: \x7btitle: '!!font(Arial, $\x7bmax(width, 1)\x7d)'\x7d"

-- a width that is no number is the size, and it is the same object in both sheets
example : (load (widthEnvironment (0.0 / 0.0)).provider leastOneText).outcome.toOption.any
    (fun sheet => sheet.same sheet) = true := by decide +kernel

/-- Whether a text was loaded as a sheet that differs from itself. -/
def loadedUnlike : Except LoadError Sheet → Bool
  | .ok sheet => !sheet.same sheet
  | .error _ => false

theorem not_reloadsSame_of_loadedUnlike {library : Yaml.Library} {text : String}
    (hunlike : loadedUnlike (loadWith library provider text).outcome = true) :
    ¬ ReloadsSame library provider text := by
  intro hreloads
  cases hload : (loadWith library provider text).outcome with
  | error e =>
      rw [hload] at hunlike
      cases hunlike
  | ok sheet =>
      obtain ⟨again, hagain, hsame⟩ := hreloads sheet hload
      cases hload.symm.trans hagain
      rw [hload, loadedUnlike, hsame] at hunlike
      cases hunlike

/-- A text with a number that is a computed NaN. -/
def nanText : String := "card: \x7bsize: !!float nan\x7d"

/-- A text with a font whose size is computed from a width. -/
def leftoverText : String := "card: \x7btitle: '!!font(Arial, $\x7bwidth - width\x7d)'\x7d"

/-- Loading the first text twice gives two sheets that are not equal; so does loading the second
one where the width is infinite. -/
theorem not_reloadsSame_nanText :
    ¬ ReloadsSame .standard ({} : Environment).provider nanText ∧
      ¬ ReloadsSame .standard (widthEnvironment (1.0 / 0.0)).provider leftoverText :=
  ⟨not_reloadsSame_of_loadedUnlike (by decide +kernel),
    not_reloadsSame_of_loadedUnlike (by decide +kernel)⟩

end Sheet

end Stylesheet
