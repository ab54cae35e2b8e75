import Stylesheet.Proofs.Rule.Default

/-!
# Reading and resolving

An accessor looks into a rule by itself, and a value can be resolved by itself.  Both come to the
same: a read gives the conversion of what the rule's value resolves to, it takes its default where
that resolution takes its own, and it records what that resolution records.  All that is its own is
the mismatch that it reports of a value that does not fit.
-/

namespace Stylesheet

open Logged

namespace Accessor

variable {α : Type} {accessor : Accessor α} {provider : Provider} {rule : Rule}

/-- What a read makes of what it finds in a rule. -/
def ofResolution (accessor : Accessor α) (rule : Rule) (default : α) :
    Resolution → Logged Event ReadError α
  | .undefined | .unavailable => pure default
  | .value p =>
      match accessor.convert p with
      | .error e => fail e
      | .ok (some a) => pure a
      | .ok none => ⟨.ok default, [.reported (accessor.mismatch rule p.typeName)]⟩

/-- A read resolves the rule's value and goes on from there. -/
theorem read_eq_after (hkind : rule.value.kind ∈ accessor.kinds) {resolution : Resolution}
    {entries : List Event}
    (hresolve : (rule.value.resolve provider (some rule.key) : Logged Event ReadError Resolution)
      = ⟨.ok resolution, entries⟩) (default : α) :
    accessor.read provider rule default
      = (accessor.ofResolution rule default resolution).after entries := by
  rw [read, read?, if_pos hkind, rule.content_eq_resolve, bind_assoc, hresolve, bind_eq_after rfl]
  congr 1
  cases resolution with
  | undefined | unavailable => rfl
  | value p =>
      simp only [ofResolution]
      cases hconvert : accessor.convert p with
      | error e => rfl
      | ok result => cases result <;> rfl

end Accessor

/-- What a value that is not undefined resolves to: a plain value that it may be, or nothing to be
had.  No mismatch is recorded on the way. -/
theorem Value.exists_resolve_eq {ε : Type} {value : Value} (hdefined : value.isUndefined = false)
    (provider : Provider) (rule : Option String) :
    ∃ resolution entries,
      (value.resolve provider rule : Logged Event ε Resolution) = ⟨.ok resolution, entries⟩ ∧
      (resolution = .unavailable ∨ ∃ p, resolution = .value p ∧ value.MayBe (.value p)) ∧
      (value.resolve provider rule : Logged Event ε Resolution).Avoids .typeMismatch := by
  obtain ⟨resolution, hresolution, hmay, havoids⟩ := resolve_spec (ε := ε) provider rule value
  have hresolve : (value.resolve provider rule : Logged Event ε Resolution)
      = ⟨.ok resolution, (value.resolve provider rule : Logged Event ε Resolution).log⟩ := by
    rw [← hresolution]
  refine ⟨resolution, _, hresolve, ?_, havoids⟩
  have hsettles : Settles (value.resolve provider rule : Logged Event ε Resolution) :=
    resolve_settles value hdefined
  rcases hsettles with ⟨p, hp⟩ | ⟨hnone, -⟩
  · rw [hresolution] at hp
    cases hp
    exact .inr ⟨p, rfl, hmay⟩
  · rw [hresolution] at hnone
    cases hnone
    exact .inl rfl

namespace Accessor

variable {α : Type} {accessor : Accessor α} {context : RuleContext} {node : Node} {value : Value}

/-- Reading a rule and resolving its value agree, if the accessor reads rules of that kind and the
integers of the node fit doubles.  There are three ends.  A value that converts is what is read.  A
value that does not convert gives the default and a mismatch after all else.  Where resolving comes
to the default that it is given, whatever that is, reading does so as well.  The entries are the
same up to that mismatch, which resolving never records itself. -/
theorem read_agrees_with_resolveOr (hvalue : (Value.ofNode context node).outcome = .ok value)
    (hfits : ∀ n : Int, node.Reaches (.scalar (.number (.integer n))) →
      (Number.integer n).toFloat? ≠ none)
    (htyped : accessor.IsTyped) (hkind : value.kind ∈ accessor.kinds) (key : String)
    (provider : Provider) :
    let resolved (fallback : Option Plain) : Logged Event ReadError (Option Plain) :=
      value.resolveOr provider (some key) fallback
    let read (default : α) : Logged Event ReadError α := accessor.read provider ⟨key, value⟩ default
    (∀ fallback, (resolved fallback).Avoids .typeMismatch) ∧
      ((∃ p a, accessor.convert p = .ok (some a) ∧
          ∀ fallback default, (resolved fallback).outcome = .ok (some p) ∧
            read default = ⟨.ok a, (resolved fallback).log⟩) ∨
        (∃ p, accessor.convert p = .ok none ∧
          ∀ fallback default, (resolved fallback).outcome = .ok (some p) ∧
            read default = ⟨.ok default, (resolved fallback).log ++
              [.reported (accessor.mismatch ⟨key, value⟩ p.typeName)]⟩) ∨
        ∀ fallback default, (resolved fallback).outcome = .ok fallback ∧
          read default = ⟨.ok default, (resolved fallback).log⟩) := by
  obtain ⟨resolution, entries, hresolve, hresolution, havoids⟩ :=
    Value.exists_resolve_eq (ε := ReadError) (htyped.isUndefined_of_mem hkind) provider (some key)
  have hresolved (fallback : Option Plain) :
      (value.resolveOr provider (some key) fallback : Logged Event ReadError (Option Plain))
        = ⟨.ok (resolution.orDefault fallback), entries⟩ := by
    rw [Value.resolveOr_eq, hresolve]
    rfl
  have hread (default : α) : accessor.read provider ⟨key, value⟩ default
      = (accessor.ofResolution ⟨key, value⟩ default resolution).after entries :=
    read_eq_after hkind hresolve default
  refine ⟨fun fallback => avoids_bind_pure_iff.mpr havoids, ?_⟩
  simp only [hresolved, hread]
  rcases hresolution with rfl | ⟨p, rfl, hmay⟩
  · refine .inr (.inr fun fallback default => ⟨rfl, ?_⟩)
    simp [ofResolution, after]
  · cases hconvert : accessor.convert p with
    | error e =>
        obtain ⟨-, n, rfl, htoo⟩ := htyped.convert_eq_error_iff.mp hconvert
        exact absurd htoo (hfits n (Value.reaches_of_mayBe_integer hvalue hmay))
    | ok result =>
        cases result with
        | some a =>
            refine .inl ⟨p, a, hconvert, fun fallback default => ⟨rfl, ?_⟩⟩
            simp [ofResolution, after, hconvert]
        | none =>
            refine .inr (.inl ⟨p, hconvert, fun fallback default => ⟨rfl, ?_⟩⟩)
            simp [ofResolution, after, hconvert]

/-- Three numbers, two of them under a further condition, are resolved and read alike. -/
theorem read_agrees_with_resolveOr_nestedLeaves :
    ∃ value, (Value.ofNode ⟨({} : Environment).provider, none⟩
        (Value.nestedLeaves (.number (.integer 3)))).outcome = .ok value ∧
      (∀ n : Int, (Value.nestedLeaves (.number (.integer 3))).Reaches
        (.scalar (.number (.integer n))) → (Number.integer n).toFloat? ≠ none) ∧
      value.kind ∈ Accessor.integer.kinds ∧
      (value.resolveOr ({} : Environment).provider (some "size") none :
        Logged Event ReadError (Option Plain)).Avoids .typeMismatch ∧
      ∃ result, (Accessor.integer.read ({} : Environment).provider ⟨"size", value⟩ 7).outcome
        = .ok result := by
  obtain ⟨value, hvalue⟩ : ∃ value, (Value.ofNode ⟨({} : Environment).provider, none⟩
      (Value.nestedLeaves (.number (.integer 3)))).outcome = .ok value :=
    Value.exists_outcome_ofNode_nestedLeaves ⟨_, Value.outcome_ofNode_number _⟩
  have hfits : ∀ n : Int, (Value.nestedLeaves (.number (.integer 3))).Reaches
      (.scalar (.number (.integer n))) → (Number.integer n).toFloat? ≠ none := by
    intro n hreaches
    simp only [Value.nestedLeaves, Node.reaches_mapping_iff, List.mem_cons, List.not_mem_nil,
      or_false, exists_eq_or_imp, exists_eq_left, Node.reaches_scalar_iff, reduceCtorEq, false_or,
      Node.scalar.injEq, Scalar.number.injEq, Number.integer.injEq] at hreaches
    rcases hreaches with (rfl | rfl) | rfl <;>
      exact Option.isSome_iff_ne_none.mp (by decide +kernel)
  have hleaves : (Value.nestedLeaves (.number (.integer 3))).LeavesOf .number :=
    (Value.leavesOf_nestedLeaves_iff rfl).mpr ⟨rfl, rfl⟩
  have hkind : value.kind ∈ Accessor.integer.kinds := by
    rw [((Value.hasKind_iff_leavesOf hvalue).mpr hleaves).kind_eq]
    exact List.mem_cons_self
  obtain ⟨havoids, hends⟩ :=
    read_agrees_with_resolveOr hvalue hfits .integer hkind "size" ({} : Environment).provider
  refine ⟨value, hvalue, hfits, hkind, havoids none, ?_⟩
  rcases hends with ⟨p, a, -, hread⟩ | ⟨p, -, hread⟩ | hread
  · exact ⟨a, congrArg Logged.outcome (hread none 7).2⟩
  · exact ⟨7, congrArg Logged.outcome (hread none 7).2⟩
  · exact ⟨7, congrArg Logged.outcome (hread none 7).2⟩

end Accessor

end Stylesheet
