import Stylesheet.Proofs.Rule.Reading
import Stylesheet.Proofs.Sheet.WellFormed

/-!
# Kinds of values

A value has a kind throughout when all that it can come to has that kind.  The leaves of a node
say which kind its value has throughout, if any, and reading the node says nothing of mixed kinds
exactly when there is one.
-/

namespace Stylesheet

open Logged

/-- The kind of a scalar as a rule's value. -/
def Scalar.kind : Scalar → Kind
  | .null => .undefined
  | .boolean _ => .boolean
  | .number _ => .number
  | .text s =>
      if (Literal.body? s).isSome then .expression
      else if Literal.isCallOf Literal.fontMark s then .font
      else if Literal.isCallOf Literal.colorMark s then .color
      else .string

theorem Scalar.kind_text_ne_number (s : String) : (Scalar.text s).kind ≠ .number := by
  rw [kind]
  split
  · decide
  · split
    · decide
    · split <;> decide

namespace Node

/-- The kind of a leaf.  A mapping without branches counts as an undefined leaf; other mappings are
no leaves. -/
def leafKind? : Node → Option Kind
  | .scalar value => some value.kind
  | .sequence _ => some .undefined
  | .mapping [] => some .undefined
  | .mapping (_ :: _) => none

/-- All leaves that a node reaches have one kind. -/
def LeavesOf (node : Node) (kind : Kind) : Prop :=
  ∀ leaf, node.Reaches leaf → ∀ leafKind, leaf.leafKind? = some leafKind → leafKind = kind

theorem leavesOf_iff_of_leafKind? {node : Node} {leafKind kind : Kind}
    (hleaf : node.leafKind? = some leafKind) : node.LeavesOf kind ↔ leafKind = kind := by
  constructor
  · intro hall
    exact hall node (.self node) leafKind hleaf
  · rintro rfl leaf hreaches otherKind hother
    -- a leaf has no branches with values, so it reaches itself alone
    cases hreaches with
    | self => exact Option.some.inj (hother.symm.trans hleaf)
    | @branch pairs pair _ hpair =>
        cases pairs with
        | nil => cases hpair
        | cons => cases hleaf

theorem leavesOf_mapping_cons_iff {pair : Node × Node} {rest : List (Node × Node)} {kind : Kind} :
    (Node.mapping (pair :: rest)).LeavesOf kind ↔
      ∀ branch ∈ pair :: rest, branch.2.LeavesOf kind := by
  constructor
  · intro hall branch hbranch leaf hreaches
    exact hall leaf (.branch hbranch hreaches)
  · intro hall leaf hreaches leafKind hkind
    rcases reaches_mapping_iff.mp hreaches with rfl | ⟨branch, hbranch, hreaches⟩
    · simp [leafKind?] at hkind
    · exact hall branch hbranch leaf hreaches leafKind hkind

end Node

/-- `value.HasKind kind`: the value has the kind, and so have all branches in it. -/
inductive Value.HasKind : Value → Kind → Prop where
  | undefined : Value.HasKind .undefined .undefined
  | plain (p : Plain) : Value.HasKind (.plain p) p.kind
  | expression (e : Expression) : Value.HasKind (.expression e) .expression
  | conditional {kind : Kind} {branches : List (Branch Value)}
      (hbranches : ∀ branch ∈ branches, Value.HasKind branch.value kind) :
      Value.HasKind (.conditional kind branches) kind

namespace Value

theorem HasKind.kind_eq {value : Value} {kind : Kind} (hkind : value.HasKind kind) :
    value.kind = kind := by
  cases hkind <;> rfl

theorem hasKind_iff_of_isConditional_eq_false {value : Value} {kind : Kind}
    (hplain : value.isConditional = false) : value.HasKind kind ↔ value.kind = kind := by
  constructor
  · exact HasKind.kind_eq
  · rintro rfl
    cases value with
    | undefined => exact .undefined
    | plain p => exact .plain p
    | expression e => exact .expression e
    | conditional kind branches => cases hplain

theorem hasKind_conditional_iff {first kind : Kind} {branches : List (Branch Value)} :
    (conditional first branches).HasKind kind ↔
      first = kind ∧ ∀ branch ∈ branches, branch.value.HasKind kind := by
  constructor
  · intro hkind
    cases hkind with
    | conditional hbranches => exact ⟨rfl, hbranches⟩
  · rintro ⟨rfl, hbranches⟩
    exact .conditional hbranches

end Value

namespace RuleContext

variable {context : RuleContext}

/-- What a text is read as is no conditional value, has the kind of the text, and is read without a
word about mixed kinds. -/
theorem parseText_spec {text : String} {value : Value}
    (hvalue : (context.parseText text).outcome = .ok value) :
    (value.isConditional = false ∧ value.kind = (Scalar.text text).kind) ∧
      (context.parseText text).Avoids .heterogeneousConditional := by
  revert hvalue
  apply parseText_cases (motive := fun reading => reading.outcome = .ok value →
    (value.isConditional = false ∧ value.kind = (Scalar.text text).kind) ∧
      reading.Avoids .heterogeneousConditional) context text
  case expression =>
    intro body hbody hvalue
    obtain ⟨e, he, hvalue⟩ := outcome_bind_eq_ok_iff.mp hvalue
    cases hvalue
    rw [avoids_bind_iff he]
    exact ⟨⟨rfl, by simp [Scalar.kind, hbody, Value.kind]⟩,
      Expression.avoids_compileReporting body context.key (by decide), avoids_pure _ _⟩
  case font =>
    intro hbody hfont family size harguments hvalue
    obtain ⟨points, hpoints, hvalue⟩ := outcome_bind_eq_ok_iff.mp hvalue
    cases hvalue
    rw [avoids_bind_iff hpoints]
    exact ⟨⟨rfl, by simp [Scalar.kind, hbody, hfont, Value.kind, Plain.kind]⟩,
      avoids_fontSize context size, avoids_pure _ _⟩
  case color =>
    intro hbody hfont hcolor argument harguments color hof hvalue
    cases hvalue
    exact ⟨⟨rfl, by simp [Scalar.kind, hbody, hfont, hcolor, Value.kind, Plain.kind]⟩,
      avoids_pure _ _⟩
  case badColor =>
    intro hbody hfont hcolor argument harguments hof d hcode hvalue
    cases hvalue
    rw [avoids_bind_iff (outcome_report d), avoids_report_iff, hcode]
    exact ⟨⟨rfl, by simp [Scalar.kind, hbody, hfont, hcolor, Value.kind, Plain.kind]⟩,
      by decide, avoids_pure _ _⟩
  case string =>
    intro hbody hfont hcolor hvalue
    cases hvalue
    exact ⟨⟨rfl, by simp [Scalar.kind, hbody, hfont, hcolor, Value.kind, Plain.kind]⟩,
      avoids_pure _ _⟩
  case fontCount =>
    intro _ _ _ hvalue
    cases hvalue
  case colorCount =>
    intro _ _ _ _ hvalue
    cases hvalue

theorem parseScalar_spec {scalar : Scalar} {value : Value}
    (hvalue : (context.parseScalar scalar).outcome = .ok value) :
    (value.isConditional = false ∧ value.kind = scalar.kind) ∧
      (context.parseScalar scalar).Avoids .heterogeneousConditional := by
  cases scalar with
  | text s => exact parseText_spec hvalue
  | null | boolean b | number n =>
      cases hvalue
      exact ⟨⟨rfl, rfl⟩, avoids_pure _ _⟩

end RuleContext

namespace Value

variable {context : RuleContext}

theorem firstKind_eq {kind : Kind} {branch : Branch Value} {others : List (Branch Value)}
    (hkind : branch.value.HasKind kind) : firstKind (branch :: others) = kind :=
  hkind.kind_eq

mutual

/-- A value has a kind throughout when all leaves of its node have that kind. -/
theorem hasKind_iff_leavesOf {kind : Kind} :
    ∀ {node : Node} {value : Value}, (ofNode context node).outcome = .ok value →
      (value.HasKind kind ↔ node.LeavesOf kind)
  | .scalar scalar, value, hvalue => by
      rw [ofNode] at hvalue
      obtain ⟨⟨hplain, hkind⟩, -⟩ := RuleContext.parseScalar_spec hvalue
      rw [hasKind_iff_of_isConditional_eq_false hplain, Node.leavesOf_iff_of_leafKind? rfl, hkind]
  | .sequence items, value, hvalue => by
      rw [ofNode] at hvalue
      cases hvalue
      rw [Node.leavesOf_iff_of_leafKind? rfl]
      exact hasKind_iff_of_isConditional_eq_false rfl
  | .mapping [], value, hvalue => by
      obtain ⟨branches, hbranches, rfl⟩ := ofNode_mapping_eq_ok_iff.mp hvalue
      rw [branchesOfPairs] at hbranches
      cases hbranches
      rw [Node.leavesOf_iff_of_leafKind? rfl, hasKind_conditional_iff]
      simp [storageOrder, firstKind]
  | .mapping (pair :: rest), value, hvalue => by
      obtain ⟨branches, hbranches, rfl⟩ := ofNode_mapping_eq_ok_iff.mp hvalue
      rw [Node.leavesOf_mapping_cons_iff, ← hasKind_branches_iff_leavesOf hbranches,
        hasKind_conditional_iff]
      simp only [mem_storageOrder_iff]
      obtain ⟨key, node⟩ := pair
      obtain ⟨source, body, first, others, -, -, -, rfl⟩ :=
        branchesOfPairs_cons_eq_ok_iff.mp hbranches
      constructor
      · exact And.right
      · intro hall
        exact ⟨firstKind_eq (hall _ List.mem_cons_self), hall⟩

theorem hasKind_branches_iff_leavesOf {kind : Kind} :
    ∀ {pairs : List (Node × Node)} {branches : List (Branch Value)},
      (branchesOfPairs context pairs).outcome = .ok branches →
        ((∀ branch ∈ branches, branch.value.HasKind kind) ↔
          ∀ pair ∈ pairs, pair.2.LeavesOf kind)
  | [], branches, hbranches => by
      rw [branchesOfPairs] at hbranches
      cases hbranches
      simp
  | (key, node) :: rest, branches, hbranches => by
      obtain ⟨source, body, first, others, -, hfirst, hothers, rfl⟩ :=
        branchesOfPairs_cons_eq_ok_iff.mp hbranches
      simp only [List.forall_mem_cons]
      rw [hasKind_iff_leavesOf hfirst, hasKind_branches_iff_leavesOf hothers]

end

mutual

/-- Reading a node says nothing of mixed kinds when its value has its kind throughout. -/
theorem avoids_ofNode_iff_hasKind :
    ∀ {node : Node} {value : Value}, (ofNode context node).outcome = .ok value →
      ((ofNode context node).Avoids .heterogeneousConditional ↔ value.HasKind value.kind)
  | .scalar scalar, value, hvalue => by
      rw [ofNode] at hvalue ⊢
      obtain ⟨⟨hplain, -⟩, havoids⟩ := RuleContext.parseScalar_spec hvalue
      exact iff_of_true havoids ((hasKind_iff_of_isConditional_eq_false hplain).mpr rfl)
  | .sequence items, value, hvalue => by
      rw [ofNode] at hvalue ⊢
      cases hvalue
      exact iff_of_true (avoids_pure _ _) .undefined
  | .mapping pairs, value, hvalue => by
      obtain ⟨branches, hbranches, rfl⟩ := ofNode_mapping_eq_ok_iff.mp hvalue
      rw [avoids_ofNode_mapping_iff hbranches, avoids_branchesOfPairs_iff_hasKind hbranches, kind,
        hasKind_conditional_iff]
      simp only [mem_storageOrder_iff, true_and]
      constructor
      · rintro ⟨hkinds, hfirst⟩ branch hbranch
        exact hfirst branch hbranch ▸ hkinds branch hbranch
      · intro hall
        have hfirst : ∀ branch ∈ branches, branch.value.kind = firstKind branches :=
          fun branch hbranch => (hall branch hbranch).kind_eq
        refine ⟨fun branch hbranch => ?_, hfirst⟩
        rw [hfirst branch hbranch]
        exact hall branch hbranch

theorem avoids_branchesOfPairs_iff_hasKind :
    ∀ {pairs : List (Node × Node)} {branches : List (Branch Value)},
      (branchesOfPairs context pairs).outcome = .ok branches →
        ((branchesOfPairs context pairs).Avoids .heterogeneousConditional ↔
          ∀ branch ∈ branches, branch.value.HasKind branch.value.kind)
  | [], branches, hbranches => by
      rw [branchesOfPairs] at hbranches ⊢
      cases hbranches
      exact iff_of_true (avoids_pure _ _) nofun
  | (key, node) :: rest, branches, hbranches => by
      obtain ⟨source, body, first, others, hcondition, hfirst, hothers, rfl⟩ :=
        branchesOfPairs_cons_eq_ok_iff.mp hbranches
      rw [avoids_branchesOfPairs_cons_iff hcondition hfirst hothers,
        avoids_ofNode_iff_hasKind hfirst, avoids_branchesOfPairs_iff_hasKind hothers]
      simp only [List.forall_mem_cons]

end

end Value

end Stylesheet
