import Stylesheet.Environment.Snapshot
import Stylesheet.Proofs.Rule.Kinds
import Stylesheet.Proofs.Rule.Selection
import Stylesheet.Rule.Read

/-!
# Reads of values of one kind

A rule whose value has a kind throughout can be read by the accessors of that kind's family, and
then there is never a mismatch: whichever branch is taken, what is found there is of that kind.
-/

namespace Stylesheet

open Logged

/-- `value.MayBe resolution`: what a value can resolve to, whatever the provider answers. -/
inductive Value.MayBe : Value → Resolution → Prop where
  | undefined : Value.MayBe .undefined .undefined
  | plain (p : Plain) : Value.MayBe (.plain p) (.value p)
  | number (e : Expression) (x : Float) : Value.MayBe (.expression e) (.value (.number (.real x)))
  | failed (e : Expression) : Value.MayBe (.expression e) .unavailable
  | noMatch (kind : Kind) (branches : List (Branch Value)) :
      Value.MayBe (.conditional kind branches) .unavailable
  | branch {kind : Kind} {branches : List (Branch Value)} {branch : Branch Value}
      {resolution : Resolution} (hbranch : branch ∈ branches)
      (hvalue : Value.MayBe branch.value resolution) :
      Value.MayBe (.conditional kind branches) resolution

namespace Value

variable {ε : Type}

mutual

/-- A value resolves to something that it may be, and no mismatch is recorded on the way. -/
theorem resolve_spec (provider : Provider) (rule : Option String) :
    ∀ value : Value, ∃ resolution,
      (value.resolve provider rule : Logged Event ε Resolution).outcome = .ok resolution ∧
      value.MayBe resolution ∧
      (value.resolve provider rule : Logged Event ε Resolution).Avoids .typeMismatch
  | .undefined => by
      rw [resolve]
      exact ⟨.undefined, rfl, .undefined, avoids_pure _ _⟩
  | .plain p => by
      rw [resolve]
      exact ⟨.value p, rfl, .plain p, avoids_pure _ _⟩
  | .expression e => by
      obtain ⟨result, hresult, -⟩ := Expression.outcome_evaluate? (ε := ε) e provider rule
      have havoids := Expression.avoids_evaluate? (ε := ε) e provider rule
        (show DiagnosticCode.evaluationFailed ≠ .typeMismatch by decide)
      rw [resolve, avoids_bind_iff hresult]
      simp only [outcome_bind_eq_ok_iff]
      cases result with
      | some x =>
          exact ⟨_, ⟨_, hresult, rfl⟩, .number e x, havoids, avoids_pure _ _⟩
      | none =>
          exact ⟨_, ⟨_, hresult, rfl⟩, .failed e, havoids, avoids_pure _ _⟩
  | .conditional kind branches => by
      obtain ⟨resolution, houtcome, hmay, havoids⟩ := resolveBranches_spec provider rule branches
      rw [resolve]
      refine ⟨resolution, houtcome, ?_, havoids⟩
      rcases hmay with rfl | ⟨branch, hbranch, hmay⟩
      · exact .noMatch kind branches
      · exact .branch hbranch hmay

theorem resolveBranches_spec (provider : Provider) (rule : Option String) :
    ∀ branches : List (Branch Value), ∃ resolution,
      (resolveBranches provider rule branches : Logged Event ε Resolution).outcome
        = .ok resolution ∧
      (resolution = .unavailable ∨ ∃ branch ∈ branches, branch.value.MayBe resolution) ∧
      (resolveBranches provider rule branches : Logged Event ε Resolution).Avoids .typeMismatch
  | [] => by
      rw [resolveBranches, avoids_bind_iff (outcome_report _), avoids_report_iff]
      exact ⟨.unavailable, rfl, .inl rfl, nofun, avoids_pure _ _⟩
  | ⟨source, condition, value⟩ :: rest => by
      obtain ⟨own, hown, hmayOwn, havoidsOwn⟩ := resolve_spec provider rule value
      obtain ⟨other, hother, hmayOther, havoidsOther⟩ := resolveBranches_spec provider rule rest
      have hmayOther : other = .unavailable ∨
          ∃ branch ∈ ⟨source, condition, value⟩ :: rest, branch.value.MayBe other := by
        rcases hmayOther with hnone | ⟨branch, hbranch, hmay⟩
        · exact .inl hnone
        · exact .inr ⟨branch, List.mem_cons_of_mem _ hbranch, hmay⟩
      rw [resolveBranches_cons, outcome_after, avoids_after_traceOf_iff (by decide)]
      by_cases hopens : Branch.opens provider ⟨source, condition, value⟩ = true
      · rw [if_pos hopens]
        exact ⟨own, hown, .inr ⟨_, List.mem_cons_self, hmayOwn⟩, havoidsOwn⟩
      · rw [if_neg hopens]
        exact ⟨other, hother, hmayOther, havoidsOther⟩

end

end Value

/-- The kind of what a value of a kind resolves to: expressions give numbers. -/
def Kind.resolved : Kind → Kind
  | expression => number
  | kind => kind

/-- What a value of a kind throughout resolves to has the kind that is expected of it. -/
theorem Value.HasKind.kind_of_mayBe {value : Value} {kind : Kind} {p : Plain}
    (hkind : value.HasKind kind) (hmay : value.MayBe (.value p)) : p.kind = kind.resolved := by
  induction hkind with
  | undefined => cases hmay
  | plain own =>
      cases hmay
      cases p <;> rfl
  | expression e =>
      cases hmay
      rfl
  | conditional hbranches ih =>
      cases hmay with
      | branch hbranch hmay => exact ih _ hbranch hmay

namespace Value

variable {context : RuleContext}

mutual

/-- The integers that a value may resolve to are scalars of its node. -/
theorem reaches_of_mayBe_integer {n : Int} :
    ∀ {node : Node} {value : Value}, (ofNode context node).outcome = .ok value →
      value.MayBe (.value (.number (.integer n))) →
      node.Reaches (.scalar (.number (.integer n)))
  | .scalar scalar, value, hvalue, hmay => by
      rw [ofNode] at hvalue
      obtain ⟨⟨hplain, hkind⟩, -⟩ := RuleContext.parseScalar_spec hvalue
      cases hmay with
      | branch => cases hplain
      | plain =>
          cases scalar with
          | number m =>
              cases hvalue
              exact .self _
          | null => cases hvalue
          | boolean b => cases hvalue
          | text s =>
              exact absurd hkind.symm (Scalar.kind_text_ne_number s)
  | .sequence items, value, hvalue, hmay => by
      rw [ofNode] at hvalue
      cases hvalue
      cases hmay
  | .mapping pairs, value, hvalue, hmay => by
      obtain ⟨branches, hbranches, rfl⟩ := ofNode_mapping_eq_ok_iff.mp hvalue
      cases hmay with
      | branch hbranch hmay =>
          obtain ⟨pair, hpair, hreaches⟩ := exists_reaches_of_mayBe_integer hbranches
            (mem_storageOrder_iff.mp hbranch) hmay
          exact .branch hpair hreaches

theorem exists_reaches_of_mayBe_integer {n : Int} :
    ∀ {pairs : List (Node × Node)} {branches : List (Branch Value)} {branch : Branch Value},
      (branchesOfPairs context pairs).outcome = .ok branches → branch ∈ branches →
      branch.value.MayBe (.value (.number (.integer n))) →
      ∃ pair ∈ pairs, pair.2.Reaches (.scalar (.number (.integer n)))
  | [], branches, branch, hbranches, hbranch, hmay => by
      rw [branchesOfPairs] at hbranches
      cases hbranches
      cases hbranch
  | (key, node) :: rest, branches, branch, hbranches, hbranch, hmay => by
      obtain ⟨source, body, value, others, -, hvalue, hothers, rfl⟩ :=
        branchesOfPairs_cons_eq_ok_iff.mp hbranches
      rcases List.mem_cons.mp hbranch with rfl | hbranch
      · exact ⟨_, List.mem_cons_self, reaches_of_mayBe_integer hvalue hmay⟩
      · obtain ⟨pair, hpair, hreaches⟩ := exists_reaches_of_mayBe_integer hothers hbranch hmay
        exact ⟨pair, List.mem_cons_of_mem _ hpair, hreaches⟩

end

end Value

namespace Accessor

/-- `accessor.Suits kind`: the accessor belongs to the family of a kind. -/
inductive Suits : {α : Type} → Accessor α → Kind → Prop where
  | float {kind : Kind} (hkind : kind ∈ numericKinds) : Suits Accessor.float kind
  | boolean {kind : Kind} (hkind : kind ∈ numericKinds) : Suits Accessor.boolean kind
  | string : Suits Accessor.string .string
  | font : Suits Accessor.font .font
  | color : Suits Accessor.color .color

variable {α : Type} {accessor : Accessor α} {kind : Kind}

theorem Suits.mem_kinds (hsuits : accessor.Suits kind) : kind ∈ accessor.kinds := by
  cases hsuits with
  | float hkind | boolean hkind => exact hkind
  | string | font | color => exact List.mem_singleton_self _

/-- A value that counts as a number by its kind has a double, or is an integer beyond them. -/
theorem toNumber?_of_kind {p : Plain} (hkind : kind ∈ numericKinds)
    (hp : p.kind = kind.resolved) :
    (∃ x, p.toNumber? = .ok (some x)) ∨
      ∃ n, p = .number (.integer n) ∧ (Number.integer n).toFloat? = none ∧
        p.toNumber? = .error .integerTooLarge := by
  cases p with
  | boolean b => exact .inl ⟨_, rfl⟩
  | number n =>
      cases hn : n.toFloat? with
      | some x => exact .inl ⟨x, by simp [Plain.toNumber?, hn]⟩
      | none =>
          cases n with
          | integer n => exact .inr ⟨n, rfl, hn, by simp [Plain.toNumber?, hn]⟩
          | real x => cases hn
          | nan => cases hn
  | string s | font f | color c =>
      cases kind <;> simp_all [numericKinds, Kind.resolved, Plain.kind]

/-- An accessor of a kind's family converts what a value of that kind resolves to, unless that is
an integer beyond all doubles. -/
theorem Suits.convert_of_kind (hsuits : accessor.Suits kind) {p : Plain}
    (hp : p.kind = kind.resolved) :
    (∃ a, accessor.convert p = .ok (some a)) ∨
      ∃ n, p = .number (.integer n) ∧ (Number.integer n).toFloat? = none ∧
        accessor.convert p = .error .integerTooLarge := by
  cases hsuits with
  | float hkind => exact toNumber?_of_kind hkind hp
  | boolean hkind =>
      rcases toNumber?_of_kind hkind hp with ⟨x, hx⟩ | ⟨n, hn, htoo, herror⟩
      · refine .inl ⟨truthy x, ?_⟩
        simp only [Accessor.boolean, hx]
        rfl
      · refine .inr ⟨n, hn, htoo, ?_⟩
        simp only [Accessor.boolean, herror]
        rfl
  | string | font | color => cases p <;> first | exact .inl ⟨_, rfl⟩ | cases hp

/-- A rule of a kind throughout is read by an accessor of that kind's family without a mismatch,
and the read gives a result unless it meets an integer beyond all doubles. -/
theorem Suits.read?_spec (hsuits : accessor.Suits kind) (rule : Rule)
    (hkind : rule.value.HasKind kind) (provider : Provider) :
    (accessor.read? provider rule).Avoids .typeMismatch ∧
      ((∃ result, (accessor.read? provider rule).outcome = .ok result) ∨
        ∃ n, rule.value.MayBe (.value (.number (.integer n))) ∧
          (Number.integer n).toFloat? = none) := by
  obtain ⟨resolution, hresolution, hmay, havoids⟩ :=
    Value.resolve_spec (ε := ReadError) provider (some rule.key) rule.value
  unfold read?
  rw [if_pos (hkind.kind_eq ▸ hsuits.mem_kinds), rule.content_eq_resolve,
    avoids_bind_iff hresolution, bind_of_ok hresolution]
  cases resolution with
  | undefined => exact ⟨⟨havoids, avoids_pure _ _⟩, .inl ⟨none, rfl⟩⟩
  | unavailable => exact ⟨⟨havoids, avoids_pure _ _⟩, .inl ⟨none, rfl⟩⟩
  | value p =>
      rcases hsuits.convert_of_kind (hkind.kind_of_mayBe hmay) with
        ⟨a, ha⟩ | ⟨n, rfl, htoo, herror⟩
      · have hconvert : (ofExcept (accessor.convert p) :
            Logged Event ReadError (Option α)).outcome = .ok (some a) := ha
        dsimp only
        rw [avoids_bind_iff hconvert, bind_of_ok hconvert]
        exact ⟨⟨havoids, nofun, avoids_pure _ _⟩, .inl ⟨some a, rfl⟩⟩
      · have hconvert : (ofExcept (accessor.convert (.number (.integer n))) :
            Logged Event ReadError (Option α)).outcome = .error .integerTooLarge := herror
        dsimp only
        rw [bind_of_error hconvert]
        exact ⟨⟨havoids, nofun⟩, .inr ⟨n, hmay, htoo⟩⟩

end Accessor

namespace Value

variable {context : RuleContext}

/-- Reading a node says nothing of mixed kinds exactly when all leaves of the node have the kind of
its value, which is then the only kind that they can all have.  If so, the accessors of the kind's
family read the rule in every environment without a mismatch, and give a result if each integer of
the node fits a double. -/
theorem mixedKinds_sound_and_complete {node : Node} {value : Value}
    (hvalue : (ofNode context node).outcome = .ok value) :
    ((ofNode context node).Avoids .heterogeneousConditional ↔ node.LeavesOf value.kind) ∧
      (∀ kind, node.LeavesOf kind → kind = value.kind) ∧
      ((ofNode context node).Avoids .heterogeneousConditional →
        ∀ {α : Type} (accessor : Accessor α), accessor.Suits value.kind →
          ∀ (key : String) (provider : Provider) (default : α),
            (accessor.read provider ⟨key, value⟩ default).Avoids .typeMismatch ∧
            ((∀ n : Int, node.Reaches (.scalar (.number (.integer n))) →
                (Number.integer n).toFloat? ≠ none) →
              ∃ result, (accessor.read provider ⟨key, value⟩ default).outcome = .ok result)) := by
  have hleaves {kind : Kind} : value.HasKind kind ↔ node.LeavesOf kind :=
    hasKind_iff_leavesOf hvalue
  refine ⟨?_, ?_, ?_⟩
  · rw [avoids_ofNode_iff_hasKind hvalue, hleaves]
  · intro kind hkind
    exact (hleaves.mpr hkind).kind_eq.symm
  · intro hnone α accessor hsuits key provider default
    have hkind := (avoids_ofNode_iff_hasKind hvalue).mp hnone
    obtain ⟨havoids, hresult⟩ := hsuits.read?_spec (Rule.mk key value) hkind provider
    refine ⟨avoids_bind_pure_iff.mpr havoids, ?_⟩
    intro hfits
    rcases hresult with ⟨result, hresult⟩ | ⟨n, hmay, htoo⟩
    · exact ⟨result.getD default, outcome_bind_eq_ok_iff.mpr ⟨result, hresult, rfl⟩⟩
    · exact absurd htoo (hfits n (reaches_of_mayBe_integer hvalue hmay))

/-- A conditional value with a scalar and a number under a further condition, and a number. -/
def nestedLeaves (inner : Scalar) : Node :=
  .mapping [
    (.scalar (.text "$\x7bwide\x7d"), .mapping [
      (.scalar (.text "$\x7btall\x7d"), .scalar inner),
      (.scalar (.text "$\x7bdefault\x7d"), .scalar (.number (.integer 2)))]),
    (.scalar (.text "$\x7bdefault\x7d"), .scalar (.number (.integer 1)))]

theorem exists_outcome_ofNode_nestedLeaves {inner : Scalar}
    (hinner : ∃ value, (ofNode context (.scalar inner)).outcome = .ok value) :
    ∃ value, (ofNode context (nestedLeaves inner)).outcome = .ok value := by
  have hnumber (n : Number) : ∃ value, (ofNode context (.scalar (.number n))).outcome = .ok value :=
    ⟨_, outcome_ofNode_number n⟩
  have hwide : (Node.scalar (.text "$\x7bwide\x7d")).condition?.isSome = true := by decide
  have htall : (Node.scalar (.text "$\x7btall\x7d")).condition?.isSome = true := by decide
  have hdefault : (Node.scalar (.text "$\x7bdefault\x7d")).condition?.isSome = true := by decide
  apply exists_outcome_ofNode_mapping
  · simp [hwide, hdefault]
  · refine List.forall_mem_cons.mpr ⟨exists_outcome_ofNode_mapping ?_ ?_, ?_⟩
    · simp [htall, hdefault]
    · simp [hinner, hnumber]
    · simp [hnumber]

theorem leavesOf_nestedLeaves_iff {inner : Scalar} {leafKind kind : Kind}
    (hinner : (Node.scalar inner).leafKind? = some leafKind) :
    (nestedLeaves inner).LeavesOf kind ↔ leafKind = kind ∧ Kind.number = kind := by
  have hnumber (n : Number) : (Node.scalar (.number n)).LeavesOf kind ↔ Kind.number = kind :=
    Node.leavesOf_iff_of_leafKind? rfl
  simp only [nestedLeaves, Node.leavesOf_mapping_cons_iff, List.forall_mem_cons, hnumber,
    Node.leavesOf_iff_of_leafKind? hinner]
  simp

/-- Three numbers, two of them under a further condition, are not mixed and are read as numbers;
with a truth value in place of one of them they are mixed. -/
theorem mixedKinds_sound_and_complete_nestedLeaves :
    (∃ value,
      (ofNode ⟨({} : Environment).provider, none⟩ (nestedLeaves (.number (.integer 3)))).outcome
        = .ok value ∧
      (ofNode ⟨({} : Environment).provider, none⟩ (nestedLeaves (.number (.integer 3)))).Avoids
        .heterogeneousConditional ∧
      (Accessor.float.read ({} : Environment).provider ⟨"size", value⟩ 0).Avoids .typeMismatch) ∧
      ¬ (ofNode ⟨({} : Environment).provider, none⟩ (nestedLeaves (.boolean true))).Avoids
        .heterogeneousConditional := by
  constructor
  · obtain ⟨value, hvalue⟩ : ∃ value, (ofNode ⟨({} : Environment).provider, none⟩
        (nestedLeaves (.number (.integer 3)))).outcome = .ok value :=
      exists_outcome_ofNode_nestedLeaves ⟨_, outcome_ofNode_number _⟩
    obtain ⟨hkinds, hkind, hreads⟩ := mixedKinds_sound_and_complete hvalue
    have hleaves : (nestedLeaves (.number (.integer 3))).LeavesOf .number :=
      (leavesOf_nestedLeaves_iff rfl).mpr ⟨rfl, rfl⟩
    have hnumber := hkind .number hleaves
    have hsuits : Accessor.float.Suits value.kind := hnumber ▸ .float List.mem_cons_self
    rw [hnumber] at hleaves
    have hnone := hkinds.mpr hleaves
    have hread := hreads hnone Accessor.float hsuits "size" ({} : Environment).provider 0
    exact ⟨value, hvalue, hnone, hread.1⟩
  · obtain ⟨value, hvalue⟩ : ∃ value, (ofNode ⟨({} : Environment).provider, none⟩
        (nestedLeaves (.boolean true))).outcome = .ok value :=
      exists_outcome_ofNode_nestedLeaves ⟨.plain (.boolean true), by rw [ofNode]; rfl⟩
    obtain ⟨hkinds, -, -⟩ := mixedKinds_sound_and_complete hvalue
    rw [hkinds, leavesOf_nestedLeaves_iff rfl]
    rintro ⟨hboolean, hnumber⟩
    cases hboolean.trans hnumber.symm

end Value

end Stylesheet
