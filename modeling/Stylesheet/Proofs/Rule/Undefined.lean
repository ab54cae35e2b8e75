import Stylesheet.Proofs.Rule.Default
import Stylesheet.Proofs.Rule.Fallback

/-!
# Undefined branches

A branch without a value is never taken, so it makes no difference to what the branches resolve to.
The rule has the kind of its first branch, however, and one that starts with an undefined branch is
undefined to all accessors.
-/

namespace Stylesheet

open Logged

/-- Whether a node is null or a sequence, and so no value. -/
def Node.isUndefined : Node → Bool
  | .scalar .null => true
  | .sequence _ => true
  | _ => false

variable {ε : Type} {context : RuleContext}

theorem Value.ofNode_eq_undefined {node : Node} (hnode : node.isUndefined = true) :
    ofNode context node = pure .undefined := by
  cases node with
  | scalar value =>
      cases value with
      | null =>
          rw [ofNode]
          rfl
      | boolean b | number n | text s => cases hnode
  | sequence items => rw [ofNode]
  | mapping pairs => cases hnode

theorem filter_storageOrder {α : Type} (keep : Branch α → Bool) (branches : List (Branch α)) :
    (storageOrder branches).filter keep = storageOrder (branches.filter keep) := by
  simp only [storageOrder, List.filter_append, List.filter_reverse, List.filter_filter,
    Bool.and_comm]

/-- Undefined branches are passed over, wherever they stand. -/
theorem Value.resolveBranches_filter (provider : Provider) (rule : Option String)
    (branches : List (Branch Value)) :
    (resolveBranches provider rule (branches.filter fun branch => !branch.value.isUndefined) :
      Logged Event ε Resolution) = resolveBranches provider rule branches := by
  induction branches with
  | nil => rfl
  | cons branch rest ih =>
      by_cases hundefined : branch.value.isUndefined = true
      · rw [List.filter_cons_of_neg (by simpa using hundefined), ih, resolveBranches,
          if_pos hundefined]
      · rw [List.filter_cons_of_pos (by simpa using hundefined), resolveBranches, resolveBranches,
          if_neg hundefined, if_neg hundefined, ih]

/-- Conditional values whose branches differ in undefined ones alone resolve alike. -/
theorem Value.resolve_conditional_congr {kind kind' : Kind}
    {branches branches' : List (Branch Value)}
    (hsame : branches.filter (fun branch => !branch.value.isUndefined)
      = branches'.filter fun branch => !branch.value.isUndefined)
    (provider : Provider) (rule : Option String) :
    ((conditional kind (storageOrder branches)).resolve provider rule :
      Logged Event ε Resolution)
      = (conditional kind' (storageOrder branches')).resolve provider rule := by
  rw [resolve, resolve, ← resolveBranches_filter, filter_storageOrder, hsame,
    ← filter_storageOrder, resolveBranches_filter]

/-- Values of one kind that resolve alike are read alike. -/
theorem Accessor.read_congr {α : Type} {accessor : Accessor α} {provider : Provider}
    {name : String} {value value' : Value} (hkind : value.kind = value'.kind)
    (hresolve : (value.resolve provider (some name) : Logged Event ReadError Resolution)
      = value'.resolve provider (some name)) (default : α) :
    accessor.read provider ⟨name, value⟩ default
      = accessor.read provider ⟨name, value'⟩ default := by
  have hread : accessor.read? provider ⟨name, value⟩
      = accessor.read? provider ⟨name, value'⟩ := by
    simp only [read?, Rule.content_eq_resolve, hkind, hresolve]
    rfl
  rw [read, read, hread]

namespace Value

variable {before after : List (Node × Node)} {key node : Node}

/-- The branches of a mapping with an undefined pair are those of the other pairs and one that has
no value. -/
theorem branchesOfPairs_undefined_eq_ok_iff {source body : String}
    (hkey : key.condition? = some (source, body)) (hnode : node.isUndefined = true)
    {branches : List (Branch Value)} :
    (branchesOfPairs context (before ++ (key, node) :: after)).outcome = .ok branches ↔
      ∃ earlier later, (branchesOfPairs context before).outcome = .ok earlier ∧
        (branchesOfPairs context after).outcome = .ok later ∧
        branches = earlier ++ ⟨source, Expression.compile body, .undefined⟩ :: later := by
  have hundefined : (ofNode context node).outcome = .ok .undefined := by
    rw [ofNode_eq_undefined hnode]
    rfl
  rw [branchesOfPairs_append_eq_ok_iff]
  constructor
  · rintro ⟨earlier, rest, hearlier, hrest, rfl⟩
    obtain ⟨source', body', value, later, hkey', hvalue, hlater, rfl⟩ :=
      branchesOfPairs_cons_eq_ok_iff.mp hrest
    cases hkey.symm.trans hkey'
    cases hundefined.symm.trans hvalue
    exact ⟨earlier, later, hearlier, hlater, rfl⟩
  · rintro ⟨earlier, later, hearlier, hlater, rfl⟩
    exact ⟨earlier, _, hearlier, branchesOfPairs_cons_eq_ok_iff.mpr
      ⟨source, body, .undefined, later, hkey, hundefined, hlater, rfl⟩, rfl⟩

theorem branchesOfPairs_eq_nil_iff {pairs : List (Node × Node)} {branches : List (Branch Value)}
    (hbranches : (branchesOfPairs context pairs).outcome = .ok branches) :
    branches = [] ↔ pairs = [] := by
  cases pairs with
  | nil =>
      rw [branchesOfPairs] at hbranches
      cases hbranches
      exact iff_of_true rfl rfl
  | cons pair pairs =>
      obtain ⟨source, body, value, others, -, -, -, rfl⟩ :=
        branchesOfPairs_cons_eq_ok_iff.mp hbranches
      exact iff_of_false (List.cons_ne_nil _ _) (List.cons_ne_nil _ _)

/-- The conditional value of branches in the order in which they are written. -/
def conditionalOf (branches : List (Branch Value)) : Value :=
  .conditional (firstKind branches) (storageOrder branches)

variable {α : Type} {accessor : Accessor α} {earlier later : List (Branch Value)}
  {branch : Branch Value}

/-- An undefined branch behind others makes no difference to a read. -/
theorem read_conditionalOf_append_cons (hearlier : earlier ≠ [])
    (hundefined : branch.value.isUndefined = true) (name : String) (provider : Provider)
    (default : α) :
    accessor.read provider ⟨name, conditionalOf (earlier ++ branch :: later)⟩ default
      = accessor.read provider ⟨name, conditionalOf (earlier ++ later)⟩ default := by
  apply Accessor.read_congr
  · cases earlier with
    | nil => exact absurd rfl hearlier
    | cons first others => rfl
  · apply resolve_conditional_congr
    simp [hundefined]

/-- With an undefined branch in front, a read gives the default. -/
theorem read_conditionalOf_cons (htyped : accessor.IsTyped)
    (hundefined : branch.value.isUndefined = true) (name : String) (provider : Provider)
    (default : α) :
    accessor.read provider ⟨name, conditionalOf (branch :: later)⟩ default
      = ⟨.ok default, [.reported (accessor.mismatch ⟨name, conditionalOf (branch :: later)⟩
          Kind.undefined.text)]⟩ := by
  have hkind : (conditionalOf (branch :: later)).kind = .undefined := by
    cases hvalue : branch.value with
    | undefined => simp [conditionalOf, kind, firstKind, hvalue]
    | plain | expression | conditional => simp [hvalue, isUndefined] at hundefined
  have hmem : (conditionalOf (branch :: later)).kind ∉ accessor.kinds := by
    rw [hkind]
    exact htyped.undefined_not_mem
  rw [Accessor.read_of_not_mem hmem, hkind]

/-- An undefined branch makes a difference exactly when it is in front of branches that would give
something other than the default. -/
theorem outcome_read_conditionalOf_eq_iff (htyped : accessor.IsTyped)
    (hundefined : branch.value.isUndefined = true) (name : String) (provider : Provider)
    (default : α) :
    (accessor.read provider ⟨name, conditionalOf (earlier ++ branch :: later)⟩ default).outcome
        = (accessor.read provider ⟨name, conditionalOf (earlier ++ later)⟩ default).outcome ↔
      earlier ≠ [] ∨
        (accessor.read provider ⟨name, conditionalOf (earlier ++ later)⟩ default).outcome
          = .ok default := by
  by_cases hearlier : earlier = []
  · subst hearlier
    rw [List.nil_append, List.nil_append, read_conditionalOf_cons htyped hundefined]
    constructor
    · intro hsame
      exact .inr hsame.symm
    · rintro (hnone | hdefault)
      · exact absurd rfl hnone
      · exact hdefault.symm
  · rw [read_conditionalOf_append_cons hearlier hundefined]
    exact iff_of_true rfl (.inl hearlier)

/-- A mapping can be read with an undefined pair exactly when it can be read without. -/
theorem exists_outcome_ofNode_undefined_iff (hkey : key.condition?.isSome = true)
    (hnode : node.isUndefined = true) :
    (∃ whole, (ofNode context (.mapping (before ++ (key, node) :: after))).outcome = .ok whole) ↔
      ∃ rest, (ofNode context (.mapping (before ++ after))).outcome = .ok rest := by
  obtain ⟨⟨source, body⟩, hcondition⟩ := Option.isSome_iff_exists.mp hkey
  simp only [ofNode_mapping_eq_ok_iff, branchesOfPairs_undefined_eq_ok_iff hcondition hnode]
  simp only [branchesOfPairs_append_eq_ok_iff]
  constructor
  · rintro ⟨_, _, ⟨earlier, later, hearlier, hlater, rfl⟩, rfl⟩
    exact ⟨_, _, ⟨earlier, later, hearlier, hlater, rfl⟩, rfl⟩
  · rintro ⟨_, _, ⟨earlier, later, hearlier, hlater, rfl⟩, rfl⟩
    exact ⟨_, _, ⟨earlier, later, hearlier, hlater, rfl⟩, rfl⟩

/-- An undefined pair that is not the first of its mapping makes no difference to any read.  With
one that is the first, all reads give the default with a mismatch, so it makes a difference exactly
when a read of the other pairs gives something else. -/
theorem read_eq_without_undefined_iff (hkey : key.condition?.isSome = true)
    (hnode : node.isUndefined = true) :
    ((∃ whole, (ofNode context (.mapping (before ++ (key, node) :: after))).outcome = .ok whole) ↔
        ∃ rest, (ofNode context (.mapping (before ++ after))).outcome = .ok rest) ∧
      ∀ whole rest,
        (ofNode context (.mapping (before ++ (key, node) :: after))).outcome = .ok whole →
        (ofNode context (.mapping (before ++ after))).outcome = .ok rest →
        ∀ {α : Type} (accessor : Accessor α), accessor.IsTyped → ∀ name provider default,
          (before ≠ [] → accessor.read provider ⟨name, whole⟩ default
            = accessor.read provider ⟨name, rest⟩ default) ∧
          (before = [] → accessor.read provider ⟨name, whole⟩ default
            = ⟨.ok default, [.reported (accessor.mismatch ⟨name, whole⟩ Kind.undefined.text)]⟩) ∧
          ((accessor.read provider ⟨name, whole⟩ default).outcome
              = (accessor.read provider ⟨name, rest⟩ default).outcome ↔
            before ≠ [] ∨ (accessor.read provider ⟨name, rest⟩ default).outcome = .ok default) := by
  refine ⟨exists_outcome_ofNode_undefined_iff hkey hnode, ?_⟩
  intro whole rest hwhole hrest α accessor htyped name provider default
  obtain ⟨⟨source, body⟩, hcondition⟩ := Option.isSome_iff_exists.mp hkey
  obtain ⟨_, hbranches, rfl⟩ := ofNode_mapping_eq_ok_iff.mp hwhole
  obtain ⟨earlier, later, hearlier, hlater, rfl⟩ :=
    (branchesOfPairs_undefined_eq_ok_iff hcondition hnode).mp hbranches
  obtain ⟨_, hothers, rfl⟩ := ofNode_mapping_eq_ok_iff.mp hrest
  obtain ⟨earlier', later', hearlier', hlater', rfl⟩ := branchesOfPairs_append_eq_ok_iff.mp hothers
  obtain rfl := Except.ok.inj (hearlier.symm.trans hearlier')
  obtain rfl := Except.ok.inj (hlater.symm.trans hlater')
  simp only [ne_eq, ← branchesOfPairs_eq_nil_iff hearlier]
  refine ⟨?_, ?_, outcome_read_conditionalOf_eq_iff htyped rfl name provider default⟩
  · intro hbefore
    exact read_conditionalOf_append_cons hbefore rfl name provider default
  · rintro rfl
    exact read_conditionalOf_cons htyped rfl name provider default

/-- No value where the condition is true, and a fallback. -/
def nullPair : Node × Node :=
  (.scalar (.text "$\x7btrue\x7d"), .scalar .null)

def fallbackPair : Node × Node :=
  (.fallbackKey, .scalar (.boolean true))

def fallbackOnly : Branch Value :=
  ⟨fallbackText, Expression.compile Constants.fallback, .plain (.boolean true)⟩

theorem condition?_nullPair : nullPair.1.condition? = some ("$\x7btrue\x7d", "true") :=
  Node.condition?_text (by decide)

theorem branchesOfPairs_fallbackPair (context : RuleContext) :
    (branchesOfPairs context [fallbackPair]).outcome = .ok [fallbackOnly] := by
  have hvalue : (ofNode context (.scalar (.boolean true))).outcome
      = .ok (.plain (.boolean true)) := by
    rw [ofNode]
    rfl
  exact branchesOfPairs_cons_eq_ok_iff.mpr ⟨_, _, _, [], Node.condition?_fallbackKey, hvalue,
    outcome_branchesOfPairs_nil, rfl⟩

theorem ofNode_fallbackPair (context : RuleContext) :
    (ofNode context (.mapping [fallbackPair])).outcome = .ok (conditionalOf [fallbackOnly]) :=
  ofNode_mapping_eq_ok_iff.mpr ⟨_, branchesOfPairs_fallbackPair context, rfl⟩

theorem read_fallbackOnly (name : String) (provider : Provider) :
    (Accessor.boolean.read provider ⟨name, conditionalOf [fallbackOnly]⟩ false).outcome
      = .ok true := by
  rfl

/-- With the pair without a value behind the fallback, the rule reads as the fallback alone. -/
theorem read_eq_without_undefined_iff_fallbackFirst :
    nullPair.1.condition?.isSome = true ∧ nullPair.2.isUndefined = true ∧
      ∃ whole rest,
        (ofNode ⟨({} : Environment).provider, some "title"⟩
          (.mapping [fallbackPair, nullPair])).outcome = .ok whole ∧
        (ofNode ⟨({} : Environment).provider, some "title"⟩
          (.mapping [fallbackPair])).outcome = .ok rest ∧
        Accessor.boolean.read ({} : Environment).provider ⟨"title", whole⟩ false
          = Accessor.boolean.read ({} : Environment).provider ⟨"title", rest⟩ false := by
  have hkey : nullPair.1.condition?.isSome = true := by rw [condition?_nullPair]; rfl
  have hrest := ofNode_fallbackPair ⟨({} : Environment).provider, some "title"⟩
  obtain ⟨hparse, hread⟩ := @read_eq_without_undefined_iff
    ⟨({} : Environment).provider, some "title"⟩ [fallbackPair] [] nullPair.1 nullPair.2 hkey rfl
  obtain ⟨whole, hwhole⟩ := hparse.mpr ⟨_, hrest⟩
  have hsame := hread whole _ hwhole hrest Accessor.boolean .boolean "title"
    ({} : Environment).provider false
  exact ⟨hkey, rfl, whole, _, hwhole, hrest, hsame.1 (List.cons_ne_nil _ _)⟩

/-- With the pair without a value in front, the fallback is not read. -/
theorem not_read_eq_without_undefined_nullFirst :
    nullPair.1.condition?.isSome = true ∧ nullPair.2.isUndefined = true ∧
      ∃ whole rest,
        (ofNode ⟨({} : Environment).provider, some "title"⟩
          (.mapping [nullPair, fallbackPair])).outcome = .ok whole ∧
        (ofNode ⟨({} : Environment).provider, some "title"⟩
          (.mapping [fallbackPair])).outcome = .ok rest ∧
        (Accessor.boolean.read ({} : Environment).provider ⟨"title", whole⟩ false).outcome
          = .ok false ∧
        (Accessor.boolean.read ({} : Environment).provider ⟨"title", rest⟩ false).outcome
          = .ok true := by
  have hkey : nullPair.1.condition?.isSome = true := by rw [condition?_nullPair]; rfl
  have hbranches : (branchesOfPairs ⟨({} : Environment).provider, some "title"⟩
      ([] ++ nullPair :: [fallbackPair])).outcome = .ok _ :=
    (branchesOfPairs_undefined_eq_ok_iff condition?_nullPair rfl).mpr
      ⟨[], [fallbackOnly], outcome_branchesOfPairs_nil, branchesOfPairs_fallbackPair _, rfl⟩
  have hwhole := ofNode_mapping_eq_ok_iff.mpr ⟨_, hbranches, rfl⟩
  have hread : Accessor.boolean.read ({} : Environment).provider ⟨"title", conditionalOf
      (⟨"$\x7btrue\x7d", Expression.compile "true", .undefined⟩ :: [fallbackOnly])⟩ false = _ :=
    read_conditionalOf_cons .boolean rfl "title" ({} : Environment).provider false
  exact ⟨hkey, rfl, _, _, hwhole, ofNode_fallbackPair _, congrArg Logged.outcome hread,
    read_fallbackOnly "title" _⟩

end Value

end Stylesheet
