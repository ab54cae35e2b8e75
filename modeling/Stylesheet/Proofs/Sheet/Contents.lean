import Stylesheet.Proofs.Rule.Contents
import Stylesheet.Proofs.Rule.Storage
import Stylesheet.Proofs.Sheet.Source

/-!
# What the rules of a sheet hold

A rule of a sheet has the name under which it is stored, and all parts of its value hold what their
kinds say, whether the style writes the rule itself or inherits it.
-/

namespace Stylesheet

open Logged

namespace Sheet

variable {provider : Provider} {root : Node} {sheet : Sheet}

/-- A rule of a sheet has the name under which it is stored.  Its value is read from the source of
the rule, and every part of the value from a node inside, of which the part holds what its kind
says. -/
theorem rule?_tagged (hsheet : (ofNode provider root).outcome = .ok sheet) {style name : String}
    {rule : Rule} (hrule : sheet.rule? style name = some rule) :
    rule.key = name ∧
      ∃ node, root.RuleSource style name node ∧
        (Value.ofNode ⟨provider, some name⟩ node).outcome = .ok rule.value ∧
        ∀ part, rule.value.HasPart part →
          ∃ inner, node.Reaches inner ∧
            (Value.ofNode ⟨provider, some name⟩ inner).outcome = .ok part ∧
            part.Tagged inner := by
  obtain ⟨node, hsource, hread⟩ := (rule?_eq_some_iff hsheet).mp hrule
  obtain ⟨hkey, hvalue⟩ := Rule.ofNode_eq_ok_iff.mp hread
  exact ⟨hkey, node, hsource, hvalue, fun part hpart => Value.exists_tagged_of_hasPart hvalue hpart⟩

/-- A card with a width in two branches, which replaces an inherited one. -/
def wideCardEntries : List (Node × Node) :=
  [(.scalar (.text mergeKey), .mapping frameEntries),
    (.scalar (.text "width"), .mapping Value.innerPairs)]

def wideCardDocument : Node :=
  .mapping [(.scalar (.text "card"), .mapping wideCardEntries)]

def wideValue : Value :=
  .conditional .number (storageOrder (Value.fallbackAndWide (.plain (.number (.integer 1)))
    (.plain (.number (.integer 2)))))

def wideCardSheet : Sheet :=
  ⟨.ofList [("card", .ofList [("width", integerRule "width" 1), ("height", integerRule "height" 2),
    ("width", ⟨"width", wideValue⟩)])]⟩

theorem ofNode_wideCardDocument (provider : Provider) :
    (ofNode provider wideCardDocument).outcome = .ok wideCardSheet := by
  have hvalue : (Value.ofNode ⟨provider, some "width"⟩ (.mapping Value.innerPairs)).outcome
      = .ok wideValue :=
    Value.ofNode_mapping_eq_ok_iff.mpr ⟨_, Value.branchesOfPairs_fallbackAndWide
      (Value.outcome_ofNode_number _) (Value.outcome_ofNode_number _), rfl⟩
  have hwidth : Binds provider (.scalar (.text "width"), .mapping Value.innerPairs)
      ("width", ⟨"width", wideValue⟩) :=
    ⟨rfl, Rule.ofNode_eq_ok_iff.mpr ⟨rfl, hvalue⟩⟩
  refine ofNode_eq_ok_iff.mpr ⟨_, rfl, _, .cons ⟨rfl, _, rfl, ?_⟩ .nil, rfl⟩
  exact rulesOfStyle_eq_ok_iff_chain.mpr ⟨_, .base rfl (.deepest rfl), _,
    .cons ⟨rfl, rfl⟩ (.cons ⟨rfl, rfl⟩ (.cons hwidth .nil)), rfl⟩

/-- The width is a number throughout: its first leaf is the number under the fallback, though the
other branch is stored first. -/
theorem rule?_tagged_wideCard :
    (ofNode ({} : Environment).provider wideCardDocument).outcome = .ok wideCardSheet ∧
      wideCardSheet.rule? "card" "width" = some ⟨"width", wideValue⟩ ∧
      wideValue.branches.map (·.source) = [Value.wideText, fallbackText] ∧
      ∃ node, wideCardDocument.RuleSource "card" "width" node ∧
        ∀ part, wideValue.HasPart part → ∃ inner, node.Reaches inner ∧ part.Tagged inner := by
  have hsheet := ofNode_wideCardDocument ({} : Environment).provider
  have hrule : wideCardSheet.rule? "card" "width" = some ⟨"width", wideValue⟩ := rfl
  obtain ⟨-, node, hsource, -, hparts⟩ := rule?_tagged hsheet hrule
  refine ⟨hsheet, hrule, by decide, node, hsource, fun part hpart => ?_⟩
  obtain ⟨inner, hreaches, -, htagged⟩ := hparts part hpart
  exact ⟨inner, hreaches, htagged⟩

end Sheet

end Stylesheet
