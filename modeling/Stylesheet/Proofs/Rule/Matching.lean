import Stylesheet.Proofs.Rule.Undefined

/-!
# Values that always match

A conditional value with a fallback always takes a branch.  When there is a fallback at every level,
so does each branch that is taken, down to a leaf: then a default is needed only if that leaf is an
expression without a value.
-/

namespace Stylesheet

open Logged

/-- A node falls back when each mapping that it reaches has a value under the name of the fallback:
neither null nor a sequence. -/
def Node.FallsBack (node : Node) : Prop :=
  ∀ pairs, node.Reaches (.mapping pairs) → ∃ pair ∈ pairs,
    (∃ source, pair.1.condition? = some (source, Constants.fallback)) ∧
      pair.2.isUndefined = false

theorem Node.FallsBack.of_mem {pairs : List (Node × Node)} {pair : Node × Node}
    (hfalls : (Node.mapping pairs).FallsBack) (hpair : pair ∈ pairs) : pair.2.FallsBack :=
  fun inner hreaches => hfalls inner (.branch hpair hreaches)

/-- A branch is a fallback that can be taken: it has a value, under the bare name. -/
structure Branch.IsBareFallback (branch : Branch Value) : Prop where
  condition_eq : branch.condition = .compile Constants.fallback
  hasValue : branch.value.isUndefined = false

/-- Bare fallbacks open whatever the provider answers. -/
theorem Branch.IsBareFallback.opens {branch : Branch Value} (hbare : branch.IsBareFallback)
    (provider : Provider) : branch.opens provider = true := by
  rw [Branch.opens, hbare.condition_eq, hbare.hasValue, Expression.holds_fallback]
  rfl

/-- `value.FallsBack`: there is a bare fallback at every level of a value. -/
inductive Value.FallsBack : Value → Prop where
  | leaf {value : Value} (hleaf : value.isConditional = false) : Value.FallsBack value
  | conditional {kind : Kind} {branches : List (Branch Value)}
      (hfallback : ∃ branch ∈ branches, branch.IsBareFallback)
      (hbranches : ∀ branch ∈ branches, Value.FallsBack branch.value) :
      Value.FallsBack (.conditional kind branches)

/-- `value.Selects provider leaf`: taking branches leads from a value to a leaf. -/
inductive Value.Selects (provider : Provider) : Value → Value → Prop where
  | leaf {value : Value} (hleaf : value.isConditional = false) : Value.Selects provider value value
  | branch {kind : Kind} {passed : List (Branch Value)} {branch : Branch Value}
      {rest : List (Branch Value)} {leaf : Value} (htakes : Takes provider passed branch)
      (hvalue : Value.Selects provider branch.value leaf) :
      Value.Selects provider (.conditional kind (passed ++ branch :: rest)) leaf

variable {ε : Type} {context : RuleContext} {provider : Provider} {rule : Option String}

theorem Scalar.kind_eq_undefined_iff {scalar : Scalar} :
    scalar.kind = .undefined ↔ scalar = .null := by
  cases scalar with
  | null => exact iff_of_true rfl rfl
  | boolean b => exact iff_of_false nofun nofun
  | number n => exact iff_of_false nofun nofun
  | text s =>
      refine iff_of_false ?_ nofun
      rw [kind]
      split
      · decide
      · split
        · decide
        · split <;> decide

namespace Value

theorem isUndefined_iff_kind {value : Value} (hplain : value.isConditional = false) :
    value.isUndefined = true ↔ value.kind = .undefined := by
  cases value with
  | undefined => exact iff_of_true rfl rfl
  | plain p => cases p <;> exact iff_of_false nofun nofun
  | expression e => exact iff_of_false nofun nofun
  | conditional => cases hplain

/-- A value is undefined exactly when its node is null or a sequence. -/
theorem isUndefined_of_ofNode {node : Node} {value : Value}
    (hvalue : (ofNode context node).outcome = .ok value) :
    value.isUndefined = node.isUndefined := by
  cases node with
  | sequence items =>
      rw [ofNode] at hvalue
      cases hvalue
      rfl
  | mapping pairs =>
      obtain ⟨branches, -, rfl⟩ := ofNode_mapping_eq_ok_iff.mp hvalue
      rfl
  | scalar scalar =>
      rw [ofNode] at hvalue
      obtain ⟨⟨hplain, hkind⟩, -⟩ := RuleContext.parseScalar_spec hvalue
      rw [Bool.eq_iff_iff, isUndefined_iff_kind hplain, hkind, Scalar.kind_eq_undefined_iff]
      cases scalar <;> simp [Node.isUndefined]

/-- A pair with a value under the fallback's name is read as a bare fallback. -/
theorem exists_isBareFallback {pairs : List (Node × Node)} {branches : List (Branch Value)}
    (hbranches : (branchesOfPairs context pairs).outcome = .ok branches) {pair : Node × Node}
    (hpair : pair ∈ pairs) {source : String}
    (hkey : pair.1.condition? = some (source, Constants.fallback))
    (hnode : pair.2.isUndefined = false) : ∃ branch ∈ branches, branch.IsBareFallback := by
  obtain ⟨before, after, rfl⟩ := List.append_of_mem hpair
  obtain ⟨earlier, later, -, hlater, rfl⟩ := branchesOfPairs_append_eq_ok_iff.mp hbranches
  obtain ⟨source', body, value, others, hkey', hvalue, -, rfl⟩ :=
    branchesOfPairs_cons_eq_ok_iff.mp hlater
  cases hkey.symm.trans hkey'
  refine ⟨_, List.mem_append_right _ List.mem_cons_self, rfl, ?_⟩
  exact (isUndefined_of_ofNode hvalue).trans hnode

mutual

/-- The value of a node that falls back does so, too. -/
theorem fallsBack_of_ofNode : ∀ {node : Node} {value : Value},
    (ofNode context node).outcome = .ok value → node.FallsBack → value.FallsBack
  | .scalar scalar, value, hvalue, _ => by
      rw [ofNode] at hvalue
      obtain ⟨⟨hplain, -⟩, -⟩ := RuleContext.parseScalar_spec hvalue
      exact .leaf hplain
  | .sequence items, value, hvalue, _ => by
      rw [ofNode] at hvalue
      cases hvalue
      exact .leaf rfl
  | .mapping pairs, value, hvalue, hfalls => by
      obtain ⟨branches, hbranches, rfl⟩ := ofNode_mapping_eq_ok_iff.mp hvalue
      obtain ⟨pair, hpair, ⟨source, hkey⟩, hnode⟩ := hfalls pairs (.self _)
      obtain ⟨branch, hbranch, hbare⟩ := exists_isBareFallback hbranches hpair hkey hnode
      have hall := fallsBack_of_branchesOfPairs hbranches fun pair => hfalls.of_mem
      refine .conditional ⟨branch, mem_storageOrder_iff.mpr hbranch, hbare⟩ fun other hother => ?_
      exact hall other (mem_storageOrder_iff.mp hother)

theorem fallsBack_of_branchesOfPairs :
    ∀ {pairs : List (Node × Node)} {branches : List (Branch Value)},
      (branchesOfPairs context pairs).outcome = .ok branches →
      (∀ pair ∈ pairs, pair.2.FallsBack) → ∀ branch ∈ branches, branch.value.FallsBack
  | [], branches, hbranches, _ => by
      rw [branchesOfPairs] at hbranches
      cases hbranches
      nofun
  | (key, node) :: rest, branches, hbranches, hfalls => by
      obtain ⟨source, body, value, others, -, hvalue, hothers, rfl⟩ :=
        branchesOfPairs_cons_eq_ok_iff.mp hbranches
      obtain ⟨hnode, hrest⟩ := List.forall_mem_cons.mp hfalls
      refine List.forall_mem_cons.mpr ⟨?_, ?_⟩
      · exact fallsBack_of_ofNode hvalue hnode
      · exact fallsBack_of_branchesOfPairs hothers hrest

end

/-- With a fallback at every level, a leaf is selected in every environment. -/
theorem FallsBack.exists_selects {value : Value} (hfalls : value.FallsBack) (provider : Provider) :
    ∃ leaf, value.Selects provider leaf := by
  induction hfalls with
  | leaf hleaf => exact ⟨_, .leaf hleaf⟩
  | @conditional kind branches hfallback hbranches ih =>
      rcases exists_takes_or_forall_not_opens provider branches with
        ⟨passed, branch, rest, rfl, htakes⟩ | hclosed
      · have hmem : branch ∈ passed ++ branch :: rest :=
          List.mem_append_right _ List.mem_cons_self
        obtain ⟨leaf, hleaf⟩ := ih branch hmem
        exact ⟨leaf, .branch htakes hleaf⟩
      · -- the bare fallback opens, so some branch does
        obtain ⟨fallback, hmem, hbare⟩ := hfallback
        have hcloses := hclosed fallback hmem
        rw [hbare.opens] at hcloses
        cases hcloses

/-- A leaf that is selected is no conditional value, and it is undefined only if it is all there
is. -/
theorem Selects.leaf_spec {value leaf : Value} (hselects : value.Selects provider leaf) :
    leaf.isConditional = false ∧ (value.isUndefined = false → leaf.isUndefined = false) := by
  induction hselects with
  | leaf hleaf => exact ⟨hleaf, id⟩
  | branch htakes _ ih =>
      have hvalue := (Branch.opens_iff.mp htakes.opens).1
      exact ⟨ih.1, fun _ => ih.2 hvalue⟩

/-- A value resolves to what its selected leaf resolves to. -/
theorem Selects.outcome_resolve {value leaf : Value} (hselects : value.Selects provider leaf)
    (rule : Option String) :
    (value.resolve provider rule : Logged Event ε Resolution).outcome
      = (leaf.resolve provider rule : Logged Event ε Resolution).outcome := by
  induction hselects with
  | leaf => rfl
  | branch htakes _ ih =>
      rw [resolve, htakes.outcome_resolveBranches, ih]

/-- A value gives what its selected leaf gives.  All that is recorded are failures of expressions
that were evaluated on the way, the leaf itself among them. -/
theorem Selects.resolveOr_spec {value leaf : Value} (hselects : value.Selects provider leaf)
    (rule : Option String) (default : Option Plain) :
    ∃ evaluated : List Expression,
      (value.resolveOr provider rule default : Logged Event ε (Option Plain)).outcome
        = (leaf.resolveOr provider rule default : Logged Event ε (Option Plain)).outcome ∧
      (value.resolveOr provider rule default : Logged Event ε (Option Plain)).diagnostics
        = evaluated.filterMap (·.failure? provider rule) ∧
      ∀ e, leaf = .expression e → e ∈ evaluated := by
  induction hselects with
  | @leaf value hleaf =>
      cases value with
      | expression e =>
          refine ⟨[e], rfl, ?_, fun _ he => ?_⟩
          · rw [diagnostics_resolveOr_expression]
            cases hfailure : e.failure? provider rule <;> simp [hfailure]
          · cases he
            exact List.mem_singleton_self e
      | undefined | plain p =>
          refine ⟨[], rfl, ?_, fun _ he => ?_⟩
          · rw [diagnostics, resolveOr_eq, resolve]
            rfl
          · cases he
      | conditional => cases hleaf
  | @branch kind passed branch rest leaf htakes _ ih =>
      obtain ⟨evaluated, houtcome, hdiagnostics, hleaf⟩ := ih
      obtain ⟨htaken, -, hrecorded⟩ := resolveOr_of_takes (ε := ε) htakes kind rest rule default
      refine ⟨conditionsOf passed ++ evaluated, htaken.trans houtcome, ?_, fun e he => ?_⟩
      · rw [hrecorded, hdiagnostics, List.filterMap_append]
      · exact List.mem_append_right _ (hleaf e he)

/-- A conditional value that is read from a node with a fallback at every level always has a match.
It gives the value of the leaf that is selected, and the default only if that leaf is an expression
that fails, which is recorded then. -/
theorem matches_of_fallsBack {pairs : List (Node × Node)} {value : Value}
    (hvalue : (ofNode context (.mapping pairs)).outcome = .ok value)
    (hfalls : (Node.mapping pairs).FallsBack) (provider : Provider) (rule : Option String)
    (default : Option Plain) :
    let run : Logged Event ε (Option Plain) := value.resolveOr provider rule default
    run.Avoids .noMatch ∧ ∃ leaf, value.Selects provider leaf ∧
      ((∃ p, leaf = .plain p ∧ run.outcome = .ok (some p)) ∨
        ∃ e, leaf = .expression e ∧
          ((∃ x, (e.attempt provider).outcome = .ok x ∧
              run.outcome = .ok (some (.number (.real x)))) ∨
            ∃ reason, (e.attempt provider).outcome = .error reason ∧ run.outcome = .ok default ∧
              e.failure reason rule ∈ run.diagnostics ∧
              (e.failure reason rule).code = .evaluationFailed)) := by
  obtain ⟨leaf, hselects⟩ := (fallsBack_of_ofNode hvalue hfalls).exists_selects provider
  obtain ⟨evaluated, houtcome, hdiagnostics, hevaluated⟩ :=
    hselects.resolveOr_spec (ε := ε) rule default
  obtain ⟨hleaf, hdefined⟩ := hselects.leaf_spec
  have hdefined : leaf.isUndefined = false := hdefined (isUndefined_of_ofNode hvalue)
  refine ⟨fun d hd => ?_, leaf, hselects, ?_⟩
  · rw [hdiagnostics] at hd
    obtain ⟨e, -, hfailure⟩ := List.mem_filterMap.mp hd
    obtain ⟨reason, -, rfl⟩ := Expression.failure?_eq_some_iff.mp hfailure
    nofun
  · rw [houtcome, hdiagnostics]
    cases leaf with
    | undefined => cases hdefined
    | conditional => cases hleaf
    | plain p => exact .inl ⟨p, rfl, by rw [resolveOr_plain]⟩
    | expression e =>
        refine .inr ⟨e, rfl, ?_⟩
        cases hattempt : (e.attempt provider).outcome with
        | ok x => exact .inl ⟨x, rfl, by rw [resolveOr_expression_of_ok hattempt]⟩
        | error reason =>
            have hfailure := Expression.failure?_of_error hattempt rule
            refine .inr ⟨reason, rfl, by rw [resolveOr_expression_of_error hattempt], ?_, rfl⟩
            exact List.mem_filterMap.mpr ⟨e, hevaluated e rfl, hfailure⟩

/-- A number for some variable, and a fallback with a fallback in it, spaced out. -/
def nestedFallback : List (Node × Node) :=
  [(.scalar (.text "$\x7bwide\x7d"), .scalar (.number (.integer 2))),
    (.scalar (.text "$\x7b default \x7d"), .mapping [fallbackPair])]

theorem condition?_spacedFallback :
    (Node.scalar (.text "$\x7b default \x7d")).condition?
      = some ("$\x7b default \x7d", Constants.fallback) :=
  Node.condition?_text (by decide)

theorem exists_outcome_ofNode_nestedFallback (context : RuleContext) :
    ∃ value, (ofNode context (.mapping nestedFallback)).outcome = .ok value := by
  have hwide : Literal.body? "$\x7bwide\x7d" = some "wide" := by decide
  have hlast := branchesOfPairs_cons_eq_ok_iff.mpr ⟨_, _, _, [], condition?_spacedFallback,
    ofNode_fallbackPair context, outcome_branchesOfPairs_nil, rfl⟩
  have hbranches := branchesOfPairs_cons_eq_ok_iff.mpr ⟨_, _, _, _, Node.condition?_text hwide,
    outcome_ofNode_number (.integer 2), hlast, rfl⟩
  exact ⟨_, ofNode_mapping_eq_ok_iff.mpr ⟨_, hbranches, rfl⟩⟩

theorem fallsBack_nestedFallback : (Node.mapping nestedFallback).FallsBack := by
  intro pairs hreaches
  rcases Node.reaches_mapping_iff.mp hreaches with hself | ⟨pair, hpair, hreaches⟩
  · cases hself
    exact ⟨_, List.mem_cons_of_mem _ List.mem_cons_self, ⟨_, condition?_spacedFallback⟩, rfl⟩
  · simp only [nestedFallback, List.mem_cons, List.not_mem_nil, or_false] at hpair
    rcases hpair with rfl | rfl
    · cases Node.reaches_scalar_iff.mp hreaches
    · rcases Node.reaches_mapping_iff.mp hreaches with hself | ⟨inner, hinner, hreaches⟩
      · cases hself
        exact ⟨_, List.mem_cons_self, ⟨_, Node.condition?_fallbackKey⟩, rfl⟩
      · rw [List.mem_singleton.mp hinner] at hreaches
        cases Node.reaches_scalar_iff.mp hreaches

/-- The variable is unknown, and the fallback in the fallback is there for it. -/
theorem matches_of_fallsBack_nestedFallback :
    (Node.mapping nestedFallback).FallsBack ∧
      ∃ value, (ofNode ⟨({} : Environment).provider, some "padding"⟩
          (.mapping nestedFallback)).outcome = .ok value ∧
        (value.resolveOr ({} : Environment).provider (some "padding") none :
          Logged Event Empty (Option Plain)).Avoids .noMatch ∧
        ∃ leaf, value.Selects ({} : Environment).provider leaf := by
  obtain ⟨value, hvalue⟩ :=
    exists_outcome_ofNode_nestedFallback ⟨({} : Environment).provider, some "padding"⟩
  obtain ⟨hmatch, leaf, hselects, -⟩ := matches_of_fallsBack (ε := Empty) hvalue
    fallsBack_nestedFallback ({} : Environment).provider (some "padding") none
  exact ⟨fallsBack_nestedFallback, value, hvalue, hmatch, leaf, hselects⟩

end Value

end Stylesheet
