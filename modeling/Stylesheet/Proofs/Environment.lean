import Stylesheet.Proofs.Number
import Stylesheet.Proofs.Table.Agreement
import Stylesheet.Environment.Snapshot

/-!
# Environments as values

Environments are equal when they have equal settings and bind the same names to numbers of equal
value, and equal environments are filed under one key.  After a run of updates each variable has the
value that it was bound to last, and each setting the one that it was given last.
-/

namespace Stylesheet

/-- A number other than NaN that has a nearest double. -/
structure Number.IsPlain (n : Number) : Prop where
  value : n.value?.isSome = true
  double : n.toFloat?.isSome = true

namespace Number

theorem isPlain_integer {n : Int} (hn : (Decimal.ofInt? n).isSome = true) :
    (integer n).IsPlain :=
  ⟨rfl, hn⟩

theorem isPlain_real {x : Float} (hx : x.isNaN = false) : (real x).IsPlain := by
  refine ⟨?_, rfl⟩
  rw [value?]
  split
  · rfl
  · rw [hx]
    rfl

end Number

namespace Environment

/-- Variables that are plain numbers, none of which has the reserved name. -/
def PlainVariables (named : Table Number) : Prop :=
  ∀ name value, named.find? name = some value → name ≠ reservedName ∧ value.IsPlain

theorem plainVariables_ofList {bindings : List (String × Number)}
    (hbindings : ∀ binding ∈ bindings, binding.1 ≠ reservedName ∧ binding.2.IsPlain) :
    PlainVariables (.ofList bindings) := by
  intro name value hvalue
  obtain ⟨before, after, rfl, -⟩ := Table.find?_ofList_eq_some_iff.mp hvalue
  exact hbindings (name, value) (by simp)

/-- An environment of which all variables are plain numbers. -/
def IsPlain (env : Environment) : Prop :=
  PlainVariables env.named

/-- Two environments with equal settings and the same variables, whose values are equal as
numbers. -/
structure Equal (a b : Environment) : Prop where
  idiom : a.idiom = b.idiom
  orientation : a.orientation = b.orientation
  vertical : a.vertical = b.vertical
  horizontal : a.horizontal = b.horizontal
  named (name : String) :
    (a.named.find? name).map Number.value? = (b.named.find? name).map Number.value?

/-! ## Equality and keys -/

variable {a b : Environment}

theorem same_iff_alike :
    a.same b = true ↔ a.idiom = b.idiom ∧ a.orientation = b.orientation ∧
      a.vertical = b.vertical ∧ a.horizontal = b.horizontal ∧
      Table.Alike Number.same a.named b.named := by
  simp only [same, Bool.and_eq_true, beq_iff_eq, Table.agree_iff_alike, and_assoc]

theorem sameKey_iff_alike :
    a.sameKey b = true ↔ a.idiom = b.idiom ∧ a.orientation = b.orientation ∧
      a.vertical = b.vertical ∧ a.horizontal = b.horizontal ∧
      Table.Alike Number.same a.named b.named := by
  simp only [sameKey, Bool.and_eq_true, beq_iff_eq, ← Table.zip_sorted_iff_alike, and_assoc]

/-- The environments that are filed under one key are those that are equal. -/
theorem sameKey_iff_same : a.sameKey b = true ↔ a.same b = true :=
  sameKey_iff_alike.trans same_iff_alike.symm

/-- Values that are numbers agree when they have the same place on the line. -/
theorem alike_iff_map_value?_eq {left right : Table Number} (hleft : PlainVariables left) :
    Table.Alike Number.same left right ↔
      ∀ name, (left.find? name).map Number.value? = (right.find? name).map Number.value? := by
  refine forall_congr' fun name => ?_
  cases hx : left.find? name with
  | none => cases right.find? name <;> simp
  | some x =>
      have hvalue := (hleft name x hx).2.value
      cases right.find? name with
      | none => simp
      | some y => simp [Number.same_iff_value?_eq hvalue]

theorem same_iff_equal (ha : a.IsPlain) : a.same b = true ↔ a.Equal b := by
  rw [same_iff_alike, alike_iff_map_value?_eq ha]
  constructor
  · rintro ⟨hidiom, horientation, hvertical, hhorizontal, hnamed⟩
    exact ⟨hidiom, horientation, hvertical, hhorizontal, hnamed⟩
  · rintro ⟨hidiom, horientation, hvertical, hhorizontal, hnamed⟩
    exact ⟨hidiom, horientation, hvertical, hhorizontal, hnamed⟩

/-! ## Updates -/

/-- An update of an environment. -/
inductive Step where
  /-- Bind variables, besides those that are bound. -/
  | bind (bindings : List (String × Number))
  /-- Change settings, and perhaps put other variables in place of all that are bound. -/
  | replace (changes : Changes) (named : Option (Table Number))

def update? (env : Environment) : Step → Option Environment
  | .bind bindings => env.withVariables? bindings
  | .replace changes named => some (env.replace changes named)

def run? (env : Environment) (steps : List Step) : Option Environment :=
  steps.foldlM update? env

namespace Step

/-- An update that is made with plain variables alone. -/
def IsPlain : Step → Prop
  | bind bindings => ∀ binding ∈ bindings, binding.1 ≠ reservedName ∧ binding.2.IsPlain
  | replace _ named => ∀ table ∈ named, PlainVariables table

/-- An update after which a name is bound to a value that it has from the update. -/
inductive Binds (name : String) (value : Number) : Step → Prop where
  | bind (earlier : List (String × Number)) {later : List (String × Number)}
      (hlast : name ∉ later.map Prod.fst) :
      Binds name value (.bind (earlier ++ (name, value) :: later))
  | replace (changes : Changes) {table : Table Number} (hvalue : table.find? name = some value) :
      Binds name value (.replace changes (some table))

/-- An update that says nothing about a name. -/
def Keeps (name : String) : Step → Prop
  | bind bindings => name ∉ bindings.map Prod.fst
  | replace _ named => named = none

/-- What an update gives a setting. -/
def given? {β : Type} (setting : Changes → Option β) : Step → Option β
  | bind _ => none
  | replace changes _ => setting changes

end Step

/-- What a name is bound to after some updates: what it was bound to by the last of them that says
anything about it, or before them all. -/
inductive LastBound (start : Table Number) (name : String) (value : Number) : List Step → Prop where
  | start {steps : List Step} (hstart : start.find? name = some value)
      (hkeep : ∀ step ∈ steps, step.Keeps name) : LastBound start name value steps
  | step (before : List Step) {step : Step} {after : List Step} (hstep : step.Binds name value)
      (hkeep : ∀ later ∈ after, later.Keeps name) :
      LastBound start name value (before ++ step :: after)

/-- The last of the values that some updates give a setting. -/
def lastGiven? {β : Type} (setting : Changes → Option β) (steps : List Step) : Option β :=
  (steps.filterMap (Step.given? setting)).getLast?

/-- An environment that some updates lead to.  A variable is known as the double of the number that
it was bound to last, and settings are those given last. -/
structure Follows (start : Environment) (steps : List Step) (last : Environment) : Prop where
  known {name : String} {value : Number} (hvalue : LastBound start.named name value steps) :
    ∃ x, value.toFloat? = some x ∧ last.provider.named name = .ok (some x)
  unknown {name : String} (hnone : ∀ value, ¬ LastBound start.named name value steps) :
    last.provider.named name = .ok none
  idiom : last.idiom = (lastGiven? Changes.idiom steps).getD start.idiom
  orientation : last.orientation = (lastGiven? Changes.orientation steps).getD start.orientation
  vertical : last.vertical = (lastGiven? Changes.vertical steps).getD start.vertical
  horizontal : last.horizontal = (lastGiven? Changes.horizontal steps).getD start.horizontal

theorem Step.binds_bind_iff {name : String} {value : Number} {bindings : List (String × Number)} :
    (Step.bind bindings).Binds name value ↔ bindings.reverse.lookup name = some value := by
  rw [← Table.find?_ofList, Table.find?_ofList_eq_some_iff]
  constructor
  · rintro (⟨earlier, hlast⟩ | _)
    exact ⟨earlier, _, rfl, hlast⟩
  · rintro ⟨earlier, later, rfl, hlast⟩
    exact .bind earlier hlast

theorem Step.binds_replace_iff {name : String} {value : Number} {changes : Changes}
    {named : Option (Table Number)} :
    (Step.replace changes named).Binds name value ↔
      ∃ table, named = some table ∧ table.find? name = some value := by
  constructor
  · rintro (_ | ⟨_, hvalue⟩)
    exact ⟨_, rfl, hvalue⟩
  · rintro ⟨table, rfl, hvalue⟩
    exact .replace changes hvalue

theorem Step.keeps_bind_iff {name : String} {bindings : List (String × Number)} :
    (Step.bind bindings).Keeps name ↔ bindings.reverse.lookup name = none :=
  lookup_reverse_eq_none_iff.symm

/-- After one update a name has its value from the update, or it had the value and kept it. -/
theorem find?_update? {env next : Environment} {step : Step} (hupdate : env.update? step = some next)
    (name : String) (value : Number) :
    next.named.find? name = some value ↔
      step.Binds name value ∨ step.Keeps name ∧ env.named.find? name = some value := by
  cases step with
  | bind bindings =>
      obtain ⟨-, rfl⟩ := withVariables?_eq_some_iff.mp hupdate
      rw [Step.binds_bind_iff, Step.keeps_bind_iff, Table.find?_insertAll]
      cases bindings.reverse.lookup name <;> simp
  | replace changes named =>
      cases hupdate
      rw [Step.binds_replace_iff]
      cases named <;> simp [replace, Step.Keeps]

theorem lastBound_nil_iff {start : Table Number} {name : String} {value : Number} :
    LastBound start name value [] ↔ start.find? name = some value := by
  constructor
  · intro hlast
    generalize hsteps : ([] : List Step) = steps at hlast
    cases hlast with
    | start hstart _ => exact hstart
    | step before => simp at hsteps
  · intro hstart
    exact .start hstart (by simp)

/-- A name is bound by the steps behind the first one, or these keep what the first one leaves. -/
theorem lastBound_cons_iff {start next : Table Number} {name : String} {value : Number} {step : Step}
    {rest : List Step}
    (hnext : next.find? name = some value ↔
      step.Binds name value ∨ step.Keeps name ∧ start.find? name = some value) :
    LastBound start name value (step :: rest) ↔ LastBound next name value rest := by
  constructor
  · intro hlast
    generalize hsteps : step :: rest = steps at hlast
    cases hlast with
    | start hstart hkeep =>
        subst hsteps
        obtain ⟨hfirst, hrest⟩ := List.forall_mem_cons.mp hkeep
        exact .start (hnext.mpr (.inr ⟨hfirst, hstart⟩)) hrest
    | step before hstep hkeep =>
        cases before with
        | nil =>
            cases hsteps
            exact .start (hnext.mpr (.inl hstep)) hkeep
        | cons first before =>
            cases hsteps
            exact .step before hstep hkeep
  · intro hlast
    cases hlast with
    | start hstart hkeep =>
        rcases hnext.mp hstart with hstep | ⟨hfirst, hstart⟩
        · exact .step [] hstep hkeep
        · exact .start hstart (List.forall_mem_cons.mpr ⟨hfirst, hkeep⟩)
    | step before hstep hkeep => exact .step (step :: before) hstep hkeep

theorem run?_cons_eq_some_iff {env last : Environment} {step : Step} {rest : List Step} :
    env.run? (step :: rest) = some last ↔
      ∃ next, env.update? step = some next ∧ next.run? rest = some last := by
  rw [run?, List.foldlM_cons]
  exact Option.bind_eq_some_iff

/-- After a run of updates the names are bound to what they were bound to last. -/
theorem find?_run? {start last : Environment} {steps : List Step}
    (hrun : start.run? steps = some last) (name : String) (value : Number) :
    last.named.find? name = some value ↔ LastBound start.named name value steps := by
  induction steps generalizing start with
  | nil =>
      cases hrun
      exact lastBound_nil_iff.symm
  | cons step rest ih =>
      obtain ⟨next, hupdate, hrest⟩ := run?_cons_eq_some_iff.mp hrun
      rw [ih hrest, lastBound_cons_iff (find?_update? hupdate name value)]

/-- A setting that updates change as they say, and leave alone otherwise, is the one that they give
last. -/
theorem setting_run? {β : Type} {read : Environment → β} {setting : Changes → Option β}
    (hbind : ∀ env named, read { env with named := named } = read env)
    (hreplace : ∀ env changes named,
      read (env.replace changes named) = (setting changes).getD (read env))
    {start last : Environment} {steps : List Step} (hrun : start.run? steps = some last) :
    read last = (lastGiven? setting steps).getD (read start) := by
  induction steps generalizing start with
  | nil =>
      cases hrun
      rfl
  | cons step rest ih =>
      obtain ⟨next, hupdate, hrest⟩ := run?_cons_eq_some_iff.mp hrun
      rw [ih hrest, lastGiven?, lastGiven?]
      cases step with
      | bind bindings =>
          obtain ⟨-, rfl⟩ := withVariables?_eq_some_iff.mp hupdate
          rw [hbind]
          rfl
      | replace changes named =>
          cases hupdate
          rw [hreplace, List.filterMap_cons, Step.given?]
          cases setting changes with
          | none => rfl
          | some given => simp [List.getLast?_cons]

/-- Updates that do not bind the reserved name are all made. -/
theorem exists_run?_eq_some {steps : List Step} (hsteps : ∀ step ∈ steps, step.IsPlain)
    (start : Environment) : ∃ last, start.run? steps = some last := by
  induction steps generalizing start with
  | nil => exact ⟨start, rfl⟩
  | cons step rest ih =>
      obtain ⟨hfirst, hrest⟩ := List.forall_mem_cons.mp hsteps
      have hupdate : ∃ next, start.update? step = some next := by
        cases step with
        | bind bindings =>
            have hnames : ∀ binding ∈ bindings, binding.1 ≠ reservedName :=
              fun binding hbinding => (hfirst binding hbinding).1
            exact ⟨_, withVariables?_eq_some_iff.mpr ⟨hnames, rfl⟩⟩
        | replace changes named => exact ⟨_, rfl⟩
      obtain ⟨next, hupdate⟩ := hupdate
      obtain ⟨last, hlast⟩ := ih hrest next
      exact ⟨last, run?_cons_eq_some_iff.mpr ⟨next, hupdate, hlast⟩⟩

/-- What plain updates bind last is plain. -/
theorem isPlain_of_lastBound {start : Table Number} (hstart : PlainVariables start)
    {steps : List Step} (hsteps : ∀ step ∈ steps, step.IsPlain) {name : String} {value : Number}
    (hlast : LastBound start name value steps) : name ≠ reservedName ∧ value.IsPlain := by
  cases hlast with
  | start hvalue _ => exact hstart name value hvalue
  | step before hstep _ =>
      have hplain := hsteps _ (List.mem_append_right _ List.mem_cons_self)
      cases hstep with
      | bind earlier _ => exact hplain (name, value) (by simp)
      | replace changes hvalue => exact hplain _ rfl name value hvalue

theorem isPlain_run? {start last : Environment} (hstart : start.IsPlain) {steps : List Step}
    (hsteps : ∀ step ∈ steps, step.IsPlain) (hrun : start.run? steps = some last) :
    last.IsPlain :=
  fun name value hvalue =>
    isPlain_of_lastBound hstart hsteps ((find?_run? hrun name value).mp hvalue)

theorem named_provider_of_some {env : Environment} {name : String} {value : Number} {x : Float}
    (hvalue : env.named.find? name = some value) (hx : value.toFloat? = some x) :
    env.provider.named name = .ok (some x) := by
  simp only [provider, hvalue, hx]

theorem named_provider_of_none {env : Environment} {name : String}
    (hnone : env.named.find? name = none) : env.provider.named name = .ok none := by
  simp only [provider, hnone]

theorem follows_run? {start last : Environment} (hstart : start.IsPlain) {steps : List Step}
    (hsteps : ∀ step ∈ steps, step.IsPlain) (hrun : start.run? steps = some last) :
    Follows start steps last where
  known {name value} hvalue := by
    have hplain := isPlain_of_lastBound hstart hsteps hvalue
    obtain ⟨x, hx⟩ := Option.isSome_iff_exists.mp hplain.2.double
    exact ⟨x, hx, named_provider_of_some ((find?_run? hrun name value).mpr hvalue) hx⟩
  unknown {name} hnone := by
    apply named_provider_of_none
    apply Option.eq_none_iff_forall_ne_some.mpr
    intro value hvalue
    exact hnone value ((find?_run? hrun name value).mp hvalue)
  idiom := setting_run? (fun _ _ => rfl) (fun _ _ _ => rfl) hrun
  orientation := setting_run? (fun _ _ => rfl) (fun _ _ _ => rfl) hrun
  vertical := setting_run? (fun _ _ => rfl) (fun _ _ _ => rfl) hrun
  horizontal := setting_run? (fun _ _ => rfl) (fun _ _ _ => rfl) hrun

theorem run?_bind_bind (env : Environment) {first second : List (String × Number)}
    (hfirst : (Step.bind first).IsPlain) (hsecond : (Step.bind second).IsPlain) :
    env.run? [.bind first, .bind second]
      = some { env with named := (env.named.insertAll first).insertAll second } := by
  have hupdate {bindings : List (String × Number)} (hbindings : (Step.bind bindings).IsPlain)
      (env : Environment) :
      env.update? (.bind bindings) = some { env with named := env.named.insertAll bindings } :=
    withVariables?_eq_some_iff.mpr ⟨fun binding hbinding => (hbindings binding hbinding).1, rfl⟩
  exact run?_cons_eq_some_iff.mpr ⟨_, hupdate hfirst env,
    run?_cons_eq_some_iff.mpr ⟨_, hupdate hsecond _, rfl⟩⟩

/-- Bindings of different names lead to equal environments, whichever are made first. -/
theorem same_run?_bind_comm {env : Environment} (henv : env.IsPlain)
    {first second : List (String × Number)} (hfirst : (Step.bind first).IsPlain)
    (hsecond : (Step.bind second).IsPlain)
    (hdisjoint : ∀ name ∈ first.map Prod.fst, name ∉ second.map Prod.fst) {one other : Environment}
    (hone : env.run? [.bind first, .bind second] = some one)
    (hother : env.run? [.bind second, .bind first] = some other) : one.same other = true := by
  have hplain : one.IsPlain := isPlain_run? henv (by simpa using ⟨hfirst, hsecond⟩) hone
  rw [run?_bind_bind env hfirst hsecond] at hone
  rw [run?_bind_bind env hsecond hfirst] at hother
  cases hone
  cases hother
  rw [same_iff_equal hplain]
  exact ⟨rfl, rfl, rfl, rfl, fun name =>
    congrArg (Option.map Number.value?) (env.named.find?_insertAll_comm hdisjoint name)⟩

/-- Environments are values.  Two of them are equal when their settings are equal and they bind the
same names to equal numbers, and those that are equal have one key; runs of updates leave the
variables as bound last and the settings as given last; and bindings of different names can be made
in either order. -/
theorem behaves_as_value :
    (∀ a b : Environment, a.IsPlain → b.IsPlain →
      (a.same b = true ↔ a.Equal b) ∧ (a.sameKey b = true ↔ a.same b = true)) ∧
    (∀ (start : Environment) (steps : List Step), start.IsPlain → (∀ step ∈ steps, step.IsPlain) →
      ∃ last, start.run? steps = some last ∧ Follows start steps last) ∧
    (∀ (env : Environment) (first second : List (String × Number)), env.IsPlain →
      (Step.bind first).IsPlain → (Step.bind second).IsPlain →
      (∀ name ∈ first.map Prod.fst, name ∉ second.map Prod.fst) →
      ∃ one other, env.run? [.bind first, .bind second] = some one ∧
        env.run? [.bind second, .bind first] = some other ∧
        one.same other = true ∧ one.sameKey other = true) := by
  refine ⟨?_, ?_, ?_⟩
  · intro a b ha _
    exact ⟨same_iff_equal ha, sameKey_iff_same⟩
  · intro start steps hstart hsteps
    obtain ⟨last, hrun⟩ := exists_run?_eq_some hsteps start
    exact ⟨last, hrun, follows_run? hstart hsteps hrun⟩
  · intro env first second henv hfirst hsecond hdisjoint
    have hone := run?_bind_bind env hfirst hsecond
    have hother := run?_bind_bind env hsecond hfirst
    have hsame := same_run?_bind_comm henv hfirst hsecond hdisjoint hone hother
    exact ⟨_, _, hone, hother, hsame, sameKey_iff_same.mpr hsame⟩

/-- An environment with an integer and a double as variables. -/
def upright : Environment :=
  { named := .ofList [("width", .integer 320), ("scale", .real 2)] }

/-- The same environment, with its variables the other way round and written the other way. -/
def reordered : Environment :=
  { named := .ofList [("scale", .integer 2), ("width", .real 320)] }

/-- Updates that bind a name twice, with all variables replaced in between. -/
def updates : List Step :=
  [.bind [("width", .integer 375), ("gap", .integer 8)],
    .replace { idiom := some .iPad } (some (.ofList [("width", .real 768)])),
    .bind [("scale", .real 1)]]

theorem isPlain_upright : upright.IsPlain := by
  apply plainVariables_ofList
  simp only [List.forall_mem_cons]
  exact ⟨⟨by decide, Number.isPlain_integer (by decide +kernel)⟩,
    ⟨by decide, Number.isPlain_real (by decide +kernel)⟩, by simp⟩

theorem isPlain_reordered : reordered.IsPlain := by
  apply plainVariables_ofList
  simp only [List.forall_mem_cons]
  exact ⟨⟨by decide, Number.isPlain_integer (by decide +kernel)⟩,
    ⟨by decide, Number.isPlain_real (by decide +kernel)⟩, by simp⟩

theorem isPlain_updates : ∀ step ∈ updates, step.IsPlain := by
  simp only [updates, List.forall_mem_cons]
  refine ⟨?_, ?_, ?_, by simp⟩
  · simp only [Step.IsPlain, List.forall_mem_cons]
    exact ⟨⟨by decide, Number.isPlain_integer (by decide +kernel)⟩,
      ⟨by decide, Number.isPlain_integer (by decide +kernel)⟩, by simp⟩
  · rintro _ ⟨⟩
    apply plainVariables_ofList
    simp only [List.forall_mem_cons]
    exact ⟨⟨by decide, Number.isPlain_real (by decide +kernel)⟩, by simp⟩
  · simp only [Step.IsPlain, List.forall_mem_cons]
    exact ⟨⟨by decide, Number.isPlain_real (by decide +kernel)⟩, by simp⟩

/-- The two environments are equal and have one key; after the updates the width is the replaced one
and the gap is not known; and two bindings of different names commute. -/
theorem behaves_as_value_upright :
    (upright.Equal reordered ∧ upright.sameKey reordered = true) ∧
    (∃ last, upright.run? updates = some last ∧ Follows upright updates last) ∧
    (∃ one other,
      upright.run? [.bind [("width", .integer 414)], .bind [("gap", .real 8)]] = some one ∧
      upright.run? [.bind [("gap", .real 8)], .bind [("width", .integer 414)]] = some other ∧
      one.same other = true ∧ one.sameKey other = true) := by
  obtain ⟨hequal, hrun, hcommute⟩ := behaves_as_value
  have hsame : upright.same reordered = true := by decide +kernel
  obtain ⟨hsameEqual, hsameKey⟩ := hequal upright reordered isPlain_upright isPlain_reordered
  refine ⟨⟨hsameEqual.mp hsame, hsameKey.mpr hsame⟩,
    hrun upright updates isPlain_upright isPlain_updates, ?_⟩
  refine hcommute upright _ _ isPlain_upright ?_ ?_ (by decide)
  · simp only [Step.IsPlain, List.forall_mem_cons]
    exact ⟨⟨by decide, Number.isPlain_integer (by decide +kernel)⟩, by simp⟩
  · simp only [Step.IsPlain, List.forall_mem_cons]
    exact ⟨⟨by decide, Number.isPlain_real (by decide +kernel)⟩, by simp⟩

end Environment

end Stylesheet
