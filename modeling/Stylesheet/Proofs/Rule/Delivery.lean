import Stylesheet.Proofs.Rule.Matching
import Stylesheet.Proofs.Rule.Parts

/-!
# Rules without a value to deliver

Every kind of rules but the undefined one has its accessor.  Where such a rule delivers nothing, its
accessor gives the default that it is called with.  Reading a rule by its kind calls the accessors
of numbers, truth values and strings with defaults of their own, though, and these hide the default
of the caller.
-/

namespace Stylesheet

open Logged

/-- `value.ComesTo provider p`: taking branches leads from a value to the plain value `p`, or to an
expression of that value. -/
inductive Value.ComesTo (provider : Provider) (value : Value) : Plain → Prop where
  | plain {p : Plain} (hselects : value.Selects provider (.plain p)) : Value.ComesTo provider value p
  | expression {e : Expression} {x : Float} (hselects : value.Selects provider (.expression e))
      (hattempt : (e.attempt provider).outcome = .ok x) :
      Value.ComesTo provider value (.number (.real x))

/-- The double that a plain value counts as. -/
def Plain.double? : Plain → Option Float
  | .boolean b => some (ofTruth b)
  | .number n => n.toFloat?
  | _ => none

/-- What a rule of a kind delivers of a plain value, if the value fits the kind. -/
def Kind.fit? : Kind → Plain → Option Plain
  | .number, p | .expression, p => p.double?.map fun x => .number (.real x)
  | .boolean, p => p.double?.map fun x => .boolean (truthy x)
  | .string, .string s => some (.string s)
  | .font, .font f => some (.font f)
  | .color, .color c => some (.color c)
  | _, _ => none

/-- A rule delivers a result: a branch matches at every level, what is selected has a value, and
that fits the kind of the rule. -/
def Rule.Delivers (provider : Provider) (rule : Rule) (result : Plain) : Prop :=
  ∃ p, rule.value.ComesTo provider p ∧ rule.value.kind.fit? p = some result

/-- The default that reading by a kind brings with it. -/
def Kind.ownDefault? : Kind → Option Plain
  | .number | .expression => some (.number (.real 0))
  | .boolean => some (.boolean false)
  | .string => some (.string "")
  | _ => none

/-- `accessor.Serves kind wrap`: rules of a kind are read by an accessor, whose results are made
plain values again. -/
inductive Accessor.Serves : {α : Type} → Accessor α → Kind → (α → Plain) → Prop where
  | number : Accessor.Serves .float .number fun x => .number (.real x)
  | expression : Accessor.Serves .float .expression fun x => .number (.real x)
  | boolean : Accessor.Serves .boolean .boolean .boolean
  | string : Accessor.Serves .string .string .string
  | font : Accessor.Serves .font .font .font
  | color : Accessor.Serves .color .color .color

variable {ε α : Type} {provider : Provider} {rule : Rule}

namespace Value

mutual

/-- Either a leaf is selected in a value, or there is no match on the way to one. -/
theorem exists_selects_or_unavailable (key : Option String) : ∀ value : Value,
    (∃ leaf, value.Selects provider leaf) ∨
      (value.resolve provider key : Logged Event ε Resolution).outcome = .ok .unavailable
  | .undefined => .inl ⟨_, .leaf rfl⟩
  | .plain p => .inl ⟨_, .leaf rfl⟩
  | .expression e => .inl ⟨_, .leaf rfl⟩
  | .conditional kind branches => by
      rcases exists_takes_or_unavailable key branches with
        ⟨passed, branch, rest, leaf, rfl, htakes, hleaf⟩ | hnone
      · exact .inl ⟨leaf, .branch htakes hleaf⟩
      · rw [resolve]
        exact .inr hnone

theorem exists_takes_or_unavailable (key : Option String) : ∀ branches : List (Branch Value),
    (∃ passed branch rest leaf, branches = passed ++ branch :: rest ∧
        Takes provider passed branch ∧ branch.value.Selects provider leaf) ∨
      (resolveBranches provider key branches : Logged Event ε Resolution).outcome
        = .ok .unavailable
  | [] => by
      rw [resolveBranches]
      exact .inr rfl
  | ⟨source, condition, value⟩ :: rest => by
      have hvalue := exists_selects_or_unavailable key value
      have hrest := exists_takes_or_unavailable key rest
      rw [resolveBranches_cons, outcome_after]
      by_cases hopens : Branch.opens provider ⟨source, condition, value⟩ = true
      · rw [if_pos hopens]
        refine hvalue.imp_left fun ⟨leaf, hleaf⟩ => ?_
        exact ⟨[], _, rest, leaf, rfl, ⟨List.forall_mem_nil _, hopens⟩, hleaf⟩
      · rw [if_neg hopens]
        refine hrest.imp_left fun ⟨passed, branch, later, leaf, hsplit, htakes, hleaf⟩ => ?_
        refine ⟨_ :: passed, branch, later, leaf, congrArg _ hsplit, ?_, hleaf⟩
        exact ⟨List.forall_mem_cons.mpr ⟨Bool.eq_false_iff.mpr hopens, htakes.passes⟩,
          htakes.opens⟩

end

/-- A value resolves to the plain value that it comes to. -/
theorem outcome_resolve_eq_value_iff {value : Value} {key : Option String} {p : Plain} :
    (value.resolve provider key : Logged Event ε Resolution).outcome = .ok (.value p) ↔
      value.ComesTo provider p := by
  constructor
  · intro hp
    have hcases : (∃ leaf, value.Selects provider leaf) ∨
        (value.resolve provider key : Logged Event ε Resolution).outcome = .ok .unavailable :=
      exists_selects_or_unavailable key value
    rcases hcases with ⟨leaf, hleaf⟩ | hnone
    · rw [hleaf.outcome_resolve] at hp
      obtain ⟨hplain, -⟩ := hleaf.leaf_spec
      cases leaf with
      | undefined => rw [resolve] at hp; cases hp
      | plain q =>
          rw [resolve] at hp
          cases hp
          exact .plain hleaf
      | expression e =>
          rw [resolve] at hp
          cases hattempt : (e.attempt provider).outcome with
          | ok x =>
              rw [Expression.evaluate?_of_ok hattempt] at hp
              cases hp
              exact .expression hleaf hattempt
          | error reason =>
              rw [Expression.evaluate?_of_error hattempt] at hp
              cases hp
      | conditional => cases hplain
    · cases hnone.symm.trans hp
  · rintro (hselects | ⟨hselects, hattempt⟩)
    · rw [hselects.outcome_resolve, resolve]
      rfl
    · rw [hselects.outcome_resolve, resolve, Expression.evaluate?_of_ok hattempt]
      rfl

end Value

theorem Plain.toNumber?_eq_some_iff {p : Plain} {x : Float} :
    p.toNumber? = .ok (some x) ↔ p.double? = some x := by
  cases p with
  | number n => cases hn : n.toFloat? <;> simp [toNumber?, double?, hn]
  | boolean | string | font | color => simp [toNumber?, double?]

namespace Accessor

variable {accessor : Accessor α} {kind : Kind} {wrap : α → Plain}

/-- A read has a result when the rule is of a kind for it and comes to a value that converts. -/
theorem outcome_read?_eq_some_iff {a : α} :
    (accessor.read? provider rule).outcome = .ok (some a) ↔
      rule.value.kind ∈ accessor.kinds ∧
        ∃ p, rule.value.ComesTo provider p ∧ accessor.convert p = .ok (some a) := by
  by_cases hkind : rule.value.kind ∈ accessor.kinds
  · rw [and_iff_right hkind]
    constructor
    · intro ha
      obtain ⟨resolution, hresolution, -⟩ :=
        Value.resolve_spec (ε := ReadError) provider (some rule.key) rule.value
      cases resolution with
      | value p =>
          refine ⟨p, Value.outcome_resolve_eq_value_iff.mp hresolution, ?_⟩
          rwa [(outcome_read?_of_value hkind hresolution).1] at ha
      | undefined | unavailable =>
          rw [read?, if_pos hkind, rule.content_eq_resolve, bind_of_ok hresolution] at ha
          cases ha
    · rintro ⟨p, hp, ha⟩
      have hresolve : (rule.value.resolve provider (some rule.key) :
          Logged Event ReadError Resolution).outcome = .ok (.value p) :=
        Value.outcome_resolve_eq_value_iff.mpr hp
      rw [(outcome_read?_of_value hkind hresolve).1, ha]
  · rw [(outcome_read?_of_not_mem hkind).1]
    refine iff_of_false (fun hsome => ?_) fun hboth => hkind hboth.1
    cases hsome

theorem Serves.isTyped (hserves : accessor.Serves kind wrap) : accessor.IsTyped := by
  cases hserves <;> constructor

theorem Serves.mem_kinds (hserves : accessor.Serves kind wrap) : kind ∈ accessor.kinds := by
  cases hserves <;> decide

/-- What fits a kind is what its accessor converts. -/
theorem Serves.fit?_eq_some_iff (hserves : accessor.Serves kind wrap) {p result : Plain} :
    kind.fit? p = some result ↔ ∃ a, accessor.convert p = .ok (some a) ∧ wrap a = result := by
  cases hserves with
  | number | expression =>
      simp only [Kind.fit?, Option.map_eq_some_iff, ← Plain.toNumber?_eq_some_iff]
      rfl
  | boolean =>
      have hconvert (b : Bool) : Accessor.boolean.convert p = .ok (some b) ↔
          ∃ x, p.toNumber? = .ok (some x) ∧ truthy x = b := by
        constructor
        · intro hb
          obtain ⟨x?, hx, hb⟩ := bind_eq_ok_iff.mp hb
          obtain ⟨x, rfl, hx'⟩ := Option.map_eq_some_iff.mp (Except.ok.inj hb)
          exact ⟨x, hx, hx'⟩
        · rintro ⟨x, hx, rfl⟩
          exact bind_eq_ok_iff.mpr ⟨some x, hx, rfl⟩
      simp only [Kind.fit?, Option.map_eq_some_iff, ← Plain.toNumber?_eq_some_iff, hconvert]
      constructor
      · rintro ⟨x, hx, rfl⟩
        exact ⟨_, ⟨x, hx, rfl⟩, rfl⟩
      · rintro ⟨-, ⟨x, hx, rfl⟩, rfl⟩
        exact ⟨x, hx, rfl⟩
  | string | font | color =>
      cases p <;> simp [Kind.fit?, Accessor.string, Accessor.font, Accessor.color]

/-- A rule delivers what the accessor of its kind reads. -/
theorem Serves.delivers_iff (hserves : accessor.Serves rule.value.kind wrap) {result : Plain} :
    rule.Delivers provider result ↔
      ∃ a, (accessor.read? provider rule).outcome = .ok (some a) ∧ wrap a = result := by
  simp only [Rule.Delivers, hserves.fit?_eq_some_iff, outcome_read?_eq_some_iff,
    and_iff_right hserves.mem_kinds]
  constructor
  · rintro ⟨p, hp, a, ha, hresult⟩
    exact ⟨a, ⟨p, hp, ha⟩, hresult⟩
  · rintro ⟨a, ⟨p, hp, ha⟩, hresult⟩
    exact ⟨p, hp, a, ha, hresult⟩

/-- A rule that delivers nothing gives nothing to the accessor of its kind, unless it overflows. -/
theorem Serves.outcome_read?_of_not_delivers (hserves : accessor.Serves rule.value.kind wrap)
    (hnone : ∀ result, ¬ rule.Delivers provider result)
    (hfits : ¬ (rule.value.kind ∈ numericKinds ∧ rule.Overflows provider)) :
    (accessor.read? provider rule).outcome = .ok none := by
  rcases hserves.isTyped.read?_cases provider rule with ⟨a, ha⟩ | ⟨hread, -⟩ | ⟨e, he⟩
  · exact absurd (hserves.delivers_iff.mpr ⟨a, ha, rfl⟩) (hnone _)
  · exact hread
  · exact absurd (hserves.isTyped.outcome_read?_eq_error_iff.mp he).2 hfits

/-- Reading by the kind is reading by its accessor, with a default that comes with the kind. -/
theorem Serves.outcome_resolve? (hserves : accessor.Serves rule.value.kind wrap) {a? : Option α}
    (hread : (accessor.read? provider rule).outcome = .ok a?) :
    (rule.resolve? provider).outcome
      = .ok ((a?.map wrap).or rule.value.kind.ownDefault?) := by
  unfold Rule.resolve?
  generalize rule.value.kind = kind at hserves
  cases hserves with
  | number | expression | boolean | string =>
      simp only [read, bind_assoc, pure_bind, outcome_bind_eq_ok_iff]
      refine ⟨a?, hread, ?_⟩
      cases a? <;> rfl
  | font | color =>
      refine outcome_bind_eq_ok_iff.mpr ⟨a?, hread, ?_⟩
      cases a? <;> rfl

/-- Every kind but the undefined one has an accessor. -/
theorem exists_serves (hkind : kind ≠ .undefined) :
    ∃ (α : Type) (accessor : Accessor α) (wrap : α → Plain), accessor.Serves kind wrap := by
  cases kind with
  | expression => exact ⟨_, _, _, .expression⟩
  | boolean => exact ⟨_, _, _, .boolean⟩
  | number => exact ⟨_, _, _, .number⟩
  | string => exact ⟨_, _, _, .string⟩
  | font => exact ⟨_, _, _, .font⟩
  | color => exact ⟨_, _, _, .color⟩
  | undefined => exact absurd rfl hkind

end Accessor

namespace Rule

variable {default : Option Plain}

theorem outcome_resolve_of_ok {result : Option Plain}
    (hresult : (rule.resolve? provider).outcome = .ok result) (default : Option Plain) :
    (rule.resolve provider default).outcome = .ok (result.or default) :=
  outcome_bind_eq_ok_iff.mpr ⟨result, hresult, rfl⟩

/-- What a rule delivers is its result, whatever the default is. -/
theorem Delivers.outcome_resolve {result : Plain} (hdelivers : rule.Delivers provider result)
    (default : Option Plain) :
    (rule.resolve provider default).outcome = .ok (some result) := by
  have hkind : rule.value.kind ≠ .undefined := by
    intro hundefined
    obtain ⟨p, -, hfit⟩ := hdelivers
    rw [hundefined] at hfit
    cases hfit
  obtain ⟨α, accessor, wrap, hserves⟩ := Accessor.exists_serves hkind
  obtain ⟨a, ha, rfl⟩ := hserves.delivers_iff.mp hdelivers
  rw [outcome_resolve_of_ok (hserves.outcome_resolve? ha)]
  rfl

/-- Where a rule delivers nothing, a default that comes with its kind goes first. -/
theorem outcome_resolve_of_not_delivers (hnone : ∀ result, ¬ rule.Delivers provider result)
    (hfits : ¬ (rule.value.kind ∈ Accessor.numericKinds ∧ rule.Overflows provider))
    (default : Option Plain) :
    (rule.resolve provider default).outcome = .ok (rule.value.kind.ownDefault?.or default) := by
  by_cases hkind : rule.value.kind = .undefined
  · have hresolve? : (rule.resolve? provider).outcome = .ok none := by
      unfold resolve?
      rw [hkind]
      rfl
    rw [outcome_resolve_of_ok hresolve?, hkind]
    rfl
  · obtain ⟨α, accessor, wrap, hserves⟩ := Accessor.exists_serves hkind
    have hread := hserves.outcome_read?_of_not_delivers hnone hfits
    rw [outcome_resolve_of_ok (hserves.outcome_resolve? hread)]
    rfl

/-- Reading a rule by its kind degrades to a default: where the rule delivers nothing, the default
is what is given. -/
def Degrades (provider : Provider) (rule : Rule) (default : Option Plain) : Prop :=
  (∀ result, ¬ rule.Delivers provider result) →
    (rule.resolve provider default).outcome = .ok default

/-- What keeps a rule that delivers nothing from giving a default. -/
inductive Withholds (provider : Provider) (rule : Rule) (default : Option Plain) : Prop where
  /-- Another default comes with the kind of the rule. -/
  | ownDefault {own : Plain} (hown : rule.value.kind.ownDefault? = some own)
      (hother : default ≠ some own)
  /-- The rule counts as a number and comes to an integer beyond all doubles. -/
  | overflow (hnumber : rule.value.kind ∈ Accessor.numericKinds) (htoo : rule.Overflows provider)

/-- A rule that delivers something is read as that by its kind.  One that delivers nothing is read
as the default of the caller unless the kind withholds it, while the accessor of the kind gives the
default that it is called with whenever it gives anything. -/
theorem degrades_iff_not_withholds (provider : Provider) (rule : Rule) (default : Option Plain) :
    (∀ result, rule.Delivers provider result →
        (rule.resolve provider default).outcome = .ok (some result)) ∧
      (rule.Degrades provider default ↔
        ¬ ((∀ result, ¬ rule.Delivers provider result) ∧ rule.Withholds provider default)) ∧
      ((∀ result, ¬ rule.Delivers provider result) →
        ∀ {α : Type} (accessor : Accessor α) (wrap : α → Plain),
          accessor.Serves rule.value.kind wrap →
          (∀ a, (accessor.read provider rule a).outcome = .ok a) ∨
            rule.value.kind ∈ Accessor.numericKinds ∧ rule.Overflows provider) := by
  refine ⟨fun result hresult => hresult.outcome_resolve default, ?_, ?_⟩
  · constructor
    · rintro hdegrades ⟨hnone, hwithholds⟩
      have hdefault := hdegrades hnone
      by_cases hoverflow : rule.value.kind ∈ Accessor.numericKinds ∧ rule.Overflows provider
      · have herror : (rule.resolve provider default).outcome = .error .integerTooLarge :=
          outcome_resolve_eq_error_iff.mpr hoverflow
        cases herror.symm.trans hdefault
      · rw [outcome_resolve_of_not_delivers hnone hoverflow] at hdefault
        rcases hwithholds with ⟨hown, hother⟩ | ⟨hnumber, htoo⟩
        · rw [hown] at hdefault
          exact hother (Except.ok.inj hdefault).symm
        · exact hoverflow ⟨hnumber, htoo⟩
    · intro hgiven hnone
      have hfits : ¬ (rule.value.kind ∈ Accessor.numericKinds ∧ rule.Overflows provider) :=
        fun hoverflow => hgiven ⟨hnone, .overflow hoverflow.1 hoverflow.2⟩
      rw [outcome_resolve_of_not_delivers hnone hfits]
      cases hown : rule.value.kind.ownDefault? with
      | none => rfl
      | some own =>
          have hsame : default = some own :=
            Classical.byContradiction fun hother => hgiven ⟨hnone, .ownDefault hown hother⟩
          rw [hsame]
          rfl
  · intro hnone α accessor wrap hserves
    refine or_iff_not_imp_right.mpr fun hfits a => ?_
    have hread := hserves.outcome_read?_of_not_delivers hnone hfits
    exact outcome_bind_eq_ok_iff.mpr ⟨none, hread, rfl⟩

/-- A number under a condition that never holds. -/
def unmatchedWidth : List (Node × Node) :=
  [(.scalar (.text "$\x7bfalse\x7d"), .scalar (.number (.integer 8)))]

/-- The rule that it is read as. -/
def unmatchedRule : Rule :=
  ⟨"width", .conditional .number
    [⟨"$\x7bfalse\x7d", Expression.compile "false", .plain (.number (.integer 8))⟩]⟩

theorem ofNode_unmatchedWidth (provider : Provider) :
    (Rule.ofNode provider "width" (.mapping unmatchedWidth)).outcome = .ok unmatchedRule := by
  have hcondition : (Node.scalar (.text "$\x7bfalse\x7d")).condition?
      = some ("$\x7bfalse\x7d", "false") := Node.condition?_text (by decide)
  have hbranches : (Value.branchesOfPairs ⟨provider, some "width"⟩ unmatchedWidth).outcome
      = .ok unmatchedRule.value.branches :=
    Value.branchesOfPairs_cons_eq_ok_iff.mpr ⟨_, _, _, [], hcondition,
      Value.outcome_ofNode_number _, Value.outcome_branchesOfPairs_nil, rfl⟩
  exact Rule.ofNode_eq_ok_iff.mpr ⟨rfl, Value.ofNode_mapping_eq_ok_iff.mpr ⟨_, hbranches, rfl⟩⟩

/-- No branch matches, and the result is zero where the caller asks for seven by default. -/
theorem not_degrades_unmatchedRule :
    (Rule.ofNode ({} : Environment).provider "width" (.mapping unmatchedWidth)).outcome
        = .ok unmatchedRule ∧
      (∀ result, ¬ unmatchedRule.Delivers ({} : Environment).provider result) ∧
      (unmatchedRule.resolve ({} : Environment).provider (some (.number (.real 7)))).outcome
        = .ok (some (.number (.real 0))) ∧
      ¬ unmatchedRule.Degrades ({} : Environment).provider (some (.number (.real 7))) := by
  have hnone (result : Plain) :
      ¬ unmatchedRule.Delivers ({} : Environment).provider result := by
    have hserves : Accessor.float.Serves unmatchedRule.value.kind _ := .number
    have hread : (Accessor.float.read? ({} : Environment).provider unmatchedRule).outcome
        = .ok none := rfl
    rw [hserves.delivers_iff, hread]
    rintro ⟨a, ha, -⟩
    cases ha
  have hzero : (unmatchedRule.resolve ({} : Environment).provider
      (some (.number (.real 7)))).outcome = .ok (some (.number (.real 0))) := rfl
  refine ⟨ofNode_unmatchedWidth _, hnone, hzero, fun hdegrades => ?_⟩
  have hsame : (0 : Float) = 7 := Number.real.inj <| Plain.number.inj <|
    Option.some.inj <| Except.ok.inj <| hzero.symm.trans (hdegrades hnone)
  exact absurd (congrArg Float.toBits hsame) (by decide +kernel)

end Rule

end Stylesheet
