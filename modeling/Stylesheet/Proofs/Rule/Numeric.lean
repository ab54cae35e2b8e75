import Stylesheet.Proofs.Decimal.Exact
import Stylesheet.Proofs.Rule.Agreement

/-!
# Numbers read in three ways

Integers, doubles and truth values are read from the same rules, and each of them comes from the
double that is found there.  So the three reads take their defaults together and record the same,
but for NaN and the infinities, which are no integers.
-/

namespace Stylesheet

open Decimal Logged

namespace Accessor

variable {α : Type} {accessor : Accessor α} {provider : Provider} {rule : Rule} {p : Plain}

/-- What a read records of a value that does not fit, if there is one. -/
def mismatches (accessor : Accessor α) (rule : Rule) (found : Option String) : List Event :=
  found.toList.map fun name => .reported (accessor.mismatch rule name)

/-- A value that is found in a rule is read as its conversion. -/
theorem read_of_value (hkind : rule.value.kind ∈ accessor.kinds) {entries : List Event}
    (hresolve : (rule.value.resolve provider (some rule.key) : Logged Event ReadError Resolution)
      = ⟨.ok (.value p), entries⟩)
    {converted : Option α} (hconvert : accessor.convert p = .ok converted) (default : α) :
    accessor.read provider rule default
      = ⟨.ok (converted.getD default), entries ++
          accessor.mismatches rule (if converted.isSome then none else some p.typeName)⟩ := by
  rw [read_eq_after hkind hresolve, ofResolution, hconvert]
  cases converted <;> rfl

theorem convert_boolean {x? : Option Float} (hx : p.toNumber? = .ok x?) :
    Accessor.boolean.convert p = .ok (x?.map truthy) := by
  simp only [Accessor.boolean, hx]
  rfl

theorem convert_integer {x? : Option Float} (hx : p.toNumber? = .ok x?) :
    Accessor.integer.convert p = .ok (x?.bind fun x => (exactValue? x).map truncated) := by
  simp only [Accessor.integer, hx, ← map_truncate_ofFloat?]
  rfl

/-- All reads of numbers take their defaults.  They record the same, each naming its own type where
a mismatch is recorded. -/
def FallBackTogether (provider : Provider) (rule : Rule) : Prop :=
  ∃ entries found, ∀ (x : Float) (b : Bool) (n : Int),
    float.read provider rule x = ⟨.ok x, entries ++ float.mismatches rule found⟩ ∧
    boolean.read provider rule b = ⟨.ok b, entries ++ boolean.mismatches rule found⟩ ∧
    integer.read provider rule n = ⟨.ok n, entries ++ integer.mismatches rule found⟩

/-- A double is read, whatever the defaults are. -/
structure ReadAsDouble (provider : Provider) (rule : Rule) (x : Float) (entries : List Event) :
    Prop where
  float_eq : ∀ default, float.read provider rule default = ⟨.ok x, entries⟩
  /-- It is true unless it is zero. -/
  boolean_eq : ∀ default, boolean.read provider rule default = ⟨.ok (x != 0), entries⟩
  true_of_isNaN : x.isNaN = true → (x != 0) = true
  /-- The integer is the value of a finite double, rounded toward zero. -/
  integer_eq : x.isFinite = true → ∃ q, exactValue? x = some q ∧
    ∀ default, integer.read provider rule default = ⟨.ok (truncated q), entries⟩
  /-- NaN and the infinities are no integers, which is a mismatch after all else. -/
  integer_falls_back : x.isFinite = false → ∃ found, ∀ default,
    integer.read provider rule default
      = ⟨.ok default, entries ++ [.reported (integer.mismatch rule found)]⟩

variable {entries : List Event}

theorem fallBackTogether_of_unavailable (hkind : rule.value.kind ∈ numericKinds)
    (hresolve : (rule.value.resolve provider (some rule.key) : Logged Event ReadError Resolution)
      = ⟨.ok .unavailable, entries⟩) : FallBackTogether provider rule := by
  refine ⟨entries, none, fun x b n => ⟨?_, ?_, ?_⟩⟩
  · exact read_eq_after hkind hresolve x
  · exact read_eq_after hkind hresolve b
  · exact read_eq_after hkind hresolve n

theorem fallBackTogether_of_not_mem (hkind : rule.value.kind ∉ numericKinds) :
    FallBackTogether provider rule := by
  refine ⟨[], some rule.value.kind.text, fun x b n => ⟨?_, ?_, ?_⟩⟩
  · exact read_of_not_mem hkind x
  · exact read_of_not_mem hkind b
  · exact read_of_not_mem hkind n

section Value

variable (hkind : rule.value.kind ∈ numericKinds)
  (hresolve : (rule.value.resolve provider (some rule.key) : Logged Event ReadError Resolution)
    = ⟨.ok (.value p), entries⟩)
include hkind hresolve

theorem fallBackTogether_of_toNumber?_eq_none (hnumber : p.toNumber? = .ok none) :
    FallBackTogether provider rule := by
  have hfloat : float.convert p = .ok none := hnumber
  refine ⟨entries, some p.typeName, fun x b n => ⟨?_, ?_, ?_⟩⟩
  · exact read_of_value hkind hresolve hfloat x
  · exact read_of_value hkind hresolve (convert_boolean hnumber) b
  · exact read_of_value hkind hresolve (convert_integer hnumber) n

theorem readAsDouble_of_toNumber?_eq_some {x : Float} (hnumber : p.toNumber? = .ok (some x)) :
    ReadAsDouble provider rule x entries := by
  have hfloat : float.convert p = .ok (some x) := hnumber
  have hinteger := read_of_value hkind hresolve (convert_integer hnumber)
  refine ⟨fun default => ?_, fun default => ?_, truthy_of_isNaN, fun hfinite => ?_,
    fun hfinite => ?_⟩
  · simpa [mismatches] using read_of_value hkind hresolve hfloat default
  · show boolean.read provider rule default = ⟨.ok (truthy x), entries⟩
    simpa [mismatches] using read_of_value hkind hresolve (convert_boolean hnumber) default
  · rw [← isSome_exactValue?] at hfinite
    obtain ⟨q, hq⟩ := Option.isSome_iff_exists.mp hfinite
    refine ⟨q, hq, fun default => ?_⟩
    simpa [mismatches, hq] using hinteger default
  · rw [← isSome_exactValue?, Option.isSome_eq_false_iff, Option.isNone_iff_eq_none] at hfinite
    refine ⟨p.typeName, fun default => ?_⟩
    simpa [mismatches, hfinite] using hinteger default

end Value

/-- The reads of numbers are coherent, if the integers of the rule fit doubles: they all take their
defaults, or they all go back to one double. -/
theorem numeric_reads_coherent (hfits : rule.value.IntegersFit) (provider : Provider) :
    FallBackTogether provider rule ∨ ∃ x entries, ReadAsDouble provider rule x entries := by
  by_cases hkind : rule.value.kind ∈ numericKinds
  · have hdefined : rule.value.isUndefined = false := IsTyped.float.isUndefined_of_mem hkind
    obtain ⟨resolution, entries, hresolve, hresolution, -⟩ :=
      Value.exists_resolve_eq (ε := ReadError) hdefined provider (some rule.key)
    rcases hresolution with rfl | ⟨p, rfl, hmay⟩
    · exact .inl (fallBackTogether_of_unavailable hkind hresolve)
    · cases hnumber : p.toNumber? with
      | error e =>
          obtain ⟨n, rfl, htoo⟩ := toNumber?_eq_error_iff.mp hnumber
          exact absurd htoo (hfits n hmay)
      | ok x? =>
          cases x? with
          | none => exact .inl (fallBackTogether_of_toNumber?_eq_none hkind hresolve hnumber)
          | some x =>
              exact .inr ⟨x, entries, readAsDouble_of_toNumber?_eq_some hkind hresolve hnumber⟩
  · exact .inl (fallBackTogether_of_not_mem hkind)

/-- A fraction is cut off toward zero. -/
example : (integer.read ({} : Environment).provider
    ⟨"offset", .plain (.number (.real (-2.5)))⟩ 7).outcome = .ok (-2) := rfl

/-- A width that is written as an integer. -/
def integerWidth : Rule :=
  ⟨"width", .plain (.number (.integer 1))⟩

/-- Its reads go back to a double. -/
theorem numeric_reads_coherent_integerWidth :
    integerWidth.value.IntegersFit ∧
      ∃ x entries, ReadAsDouble ({} : Environment).provider integerWidth x entries := by
  have hfits : integerWidth.value.IntegersFit := by
    intro n hmay
    cases hmay
    exact Option.isSome_iff_ne_none.mp (by decide +kernel)
  refine ⟨hfits, ?_⟩
  rcases numeric_reads_coherent hfits ({} : Environment).provider with
    ⟨entries, found, hdefaults⟩ | hreads
  · -- the integer is read, so no default is taken
    have hread : (integer.read ({} : Environment).provider integerWidth 7).outcome = .ok 1 := rfl
    rw [(hdefaults 0 false 7).2.2] at hread
    exact absurd (Except.ok.inj hread) (by decide)
  · exact hreads

end Accessor

end Stylesheet
