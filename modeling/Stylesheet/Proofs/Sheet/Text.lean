import Stylesheet.Proofs.Sheet.Loading
import Stylesheet.Proofs.Yaml.Document
import Stylesheet.Sheet.Load

/-!
# Loading from text

Loading a text gives a sheet or fails, and most failures have a message: they are those of style
sheets.  The others come from the library for YAML, whatever it is, and from what no message can
show or no stack can hold.  It is said exactly which texts fail with one of them.
-/

namespace Stylesheet

open Logged

open Yaml (Graph Library)

variable {library : Library}

namespace Sheet

variable {provider : Provider} {text : String}

theorem outcome_loadWith_of_error {e : Yaml.Error} (hread : library.read text = .error e) :
    (loadWith library provider text).outcome = .error (.text e) := by
  rw [loadWith, hread]
  rfl

theorem outcome_loadWith_of_shallow {tree : Node} (hread : library.read text = .ok (some tree))
    (hshallow : tree.isShallow = true) :
    (loadWith library provider text).outcome
      = (ofNode provider tree).outcome.mapError .document := by
  rw [loadWith, hread]
  dsimp only
  rw [if_pos hshallow]
  rfl

theorem outcome_loadWith_of_deep {tree : Node} (hread : library.read text = .ok (some tree))
    (hdeep : tree.isShallow = false) :
    (loadWith library provider text).outcome = .error .tooDeep := by
  rw [loadWith, hread]
  dsimp only
  rw [if_neg (Bool.eq_false_iff.mp hdeep)]
  rfl

/-- A sheet that is loaded from a text is that of the document which the text describes. -/
theorem loadWith_eq_ok_iff {sheet : Sheet} :
    (loadWith library provider text).outcome = .ok sheet ↔
      ∃ root, library.read text = .ok (some root) ∧ root.isShallow = true ∧
        (ofNode provider root).outcome = .ok sheet := by
  cases hread : library.read text with
  | error e => simp [outcome_loadWith_of_error hread]
  | ok document =>
      cases document with
      | none =>
          constructor
          · intro hload
            rw [loadWith, hread] at hload
            cases hload
          · rintro ⟨root, hroot, -⟩
            cases hroot
      | some root =>
          simp only [Except.ok.injEq, Option.some.injEq, exists_eq_left']
          cases hshallow : root.isShallow with
          | false => simp [outcome_loadWith_of_deep hread hshallow]
          | true =>
              rw [outcome_loadWith_of_shallow hread hshallow]
              cases (ofNode provider root).outcome <;> simp [Except.mapError]

end Sheet

end Stylesheet
