import Mathlib.Data.List.TakeWhile
import Stylesheet.CommandLine.Arguments
import Stylesheet.Proofs.Lists
import Stylesheet.Proofs.Table

/-!
# The environment of the command line

Which variables the texts of the command line assign, and the environment that is made of them and
of the settings given beside them.  There is one name that no environment can be made with.
-/

namespace Stylesheet.CommandLine

/-- A text assigns a number to a name: what is in front of its first sign of equality, without white
space around it, is the name, and what is behind it is the number. -/
inductive Assigns (text name : String) (x : Float) : Prop where
  | intro {written number : List Char} (htext : text.toList = written ++ '=' :: number)
      (hfirst : '=' ∉ written) (hwritten : written ≠ [])
      (hname : name = String.ofList (Text.trim written))
      (hnumber : Decimal.readFloat? number = some x) : Assigns text name x

/-- A text assigns nothing: it has no sign of equality, nothing in front of the first one, or no
number behind it. -/
inductive Misassigns (text : String) : Prop where
  | noSign (hsign : '=' ∉ text.toList) : Misassigns text
  | noName {number : List Char} (htext : text.toList = '=' :: number) : Misassigns text
  | noNumber {written number : List Char} (htext : text.toList = written ++ '=' :: number)
      (hfirst : '=' ∉ written) (hnumber : Decimal.readFloat? number = none) : Misassigns text

/-- The number that the last of some texts to assign one to a name assigns to it. -/
def LastAssigned (texts : List String) (name : String) (x : Float) : Prop :=
  ∃ before text after, texts = before ++ text :: after ∧ Assigns text name x ∧
    ∀ later ∈ after, ∀ y, ¬ Assigns later name y

/-- The environment that settings ask for: every variable has the number that was assigned to it
last, there are no others, and what is not set is as configured. -/
structure Intended (config : Config) (settings : Settings) (env : Environment) : Prop where
  named (name : String) (value : Number) :
    env.named.find? name = some value ↔
      ∃ x, value = .real x ∧ LastAssigned settings.assignments name x
  idiom : env.idiom = settings.changes.idiom.getD config.idiom
  orientation : env.orientation = settings.changes.orientation.getD config.orientation
  vertical : env.vertical = settings.changes.vertical.getD config.vertical
  horizontal : env.horizontal = settings.changes.horizontal.getD config.horizontal

/-- Settings are refused when one of their texts assigns nothing, and otherwise give the environment
that they ask for. -/
structure BuildsIntended (config : Config) (settings : Settings) : Prop where
  refused_iff : environment config settings = .error .badVariable ↔
    ∃ text ∈ settings.assignments, Misassigns text
  built (hassign : ∀ text ∈ settings.assignments, ¬ Misassigns text) :
    ∃ env, environment config settings = .ok env ∧ Intended config settings env

/-- Settings all of whose texts assign a number, one of them to the reserved name. -/
structure AssignsReserved (settings : Settings) : Prop where
  assign : ∀ text ∈ settings.assignments, ¬ Misassigns text
  reserved : ∃ text ∈ settings.assignments, ∃ x, Assigns text Environment.reservedName x

/-! ## One text -/

theorem splitAssignment?_of_not_mem {text : String} (hsign : '=' ∉ text.toList) :
    splitAssignment? text = none := by
  have hall : ∀ c ∈ text.toList, (c != '=') = true := by
    intro c hc
    exact bne_iff_ne.mpr fun heq => hsign (heq ▸ hc)
  have htake : text.toList.takeWhile (· != '=') = text.toList := List.takeWhile_eq_self_iff.mpr hall
  simp only [splitAssignment?, htake, List.drop_length]

theorem splitAssignment?_of_append {text : String} {written number : List Char}
    (htext : text.toList = written ++ '=' :: number) (hfirst : '=' ∉ written) :
    splitAssignment? text = some (String.ofList written, String.ofList number) := by
  have hall : ∀ c ∈ written, (c != '=') = true := by
    intro c hc
    exact bne_iff_ne.mpr fun heq => hfirst (heq ▸ hc)
  have htake : text.toList.takeWhile (· != '=') = written := by
    rw [htext, List.takeWhile_append_of_pos hall, List.takeWhile_cons_of_neg (by simp),
      List.append_nil]
  simp only [splitAssignment?, htake]
  rw [htext, List.drop_left]

/-- A text has no sign of equality, or it has a first one. -/
theorem exists_first_sign (text : String) :
    '=' ∉ text.toList ∨
      ∃ written number, text.toList = written ++ '=' :: number ∧ '=' ∉ written := by
  by_cases hsign : '=' ∈ text.toList
  · obtain ⟨written, number, htext, hfirst⟩ := List.eq_append_cons_of_mem hsign
    exact .inr ⟨written, number, htext, hfirst⟩
  · exact .inl hsign

theorem binding?_of_not_mem {text : String} (hsign : '=' ∉ text.toList) :
    binding? text = none := by
  rw [binding?, splitAssignment?_of_not_mem hsign]
  rfl

theorem binding?_of_append {text : String} {written number : List Char}
    (htext : text.toList = written ++ '=' :: number) (hfirst : '=' ∉ written) :
    binding? text = if written = [] then none
      else (Decimal.readFloat? number).map fun x =>
        (String.ofList (Text.trim written), .real x) := by
  rw [binding?, splitAssignment?_of_append htext hfirst]
  by_cases hwritten : written = []
  · simp [hwritten]
  · cases hnumber : Decimal.readFloat? number <;> simp [hwritten, hnumber]

/-- A text is read as an assignment when it is one. -/
theorem binding?_eq_some_iff {text name : String} {value : Number} :
    binding? text = some (name, value) ↔ ∃ x, value = .real x ∧ Assigns text name x := by
  constructor
  · intro hbinding
    rcases exists_first_sign text with hsign | ⟨written, number, htext, hfirst⟩
    · rw [binding?_of_not_mem hsign] at hbinding
      cases hbinding
    · rw [binding?_of_append htext hfirst] at hbinding
      obtain ⟨hwritten, hread⟩ := Option.ite_none_left_eq_some.mp hbinding
      obtain ⟨x, hnumber, heq⟩ := Option.map_eq_some_iff.mp hread
      cases heq
      exact ⟨x, rfl, htext, hfirst, hwritten, rfl, hnumber⟩
  · rintro ⟨x, rfl, htext, hfirst, hwritten, rfl, hnumber⟩
    rw [binding?_of_append htext hfirst, if_neg hwritten, hnumber]
    rfl

theorem binding?_eq_none_iff {text : String} : binding? text = none ↔ Misassigns text := by
  constructor
  · intro hbinding
    rcases exists_first_sign text with hsign | ⟨written, number, htext, hfirst⟩
    · exact .noSign hsign
    · rw [binding?_of_append htext hfirst] at hbinding
      by_cases hwritten : written = []
      · subst hwritten
        exact .noName htext
      · rw [if_neg hwritten, Option.map_eq_none_iff] at hbinding
        exact .noNumber htext hfirst hbinding
  · intro hmisassigns
    cases hmisassigns with
    | noSign hsign => exact binding?_of_not_mem hsign
    | @noName number htext =>
        have hfirst : text.toList = [] ++ '=' :: number := htext
        rw [binding?_of_append hfirst List.not_mem_nil, if_pos rfl]
    | noNumber htext hfirst hnumber =>
        rw [binding?_of_append htext hfirst, hnumber, Option.map_none, ite_self]

/-! ## All texts -/

/-- What the bindings read from texts bind last is what the texts assign last. -/
theorem find?_ofList_eq_some_iff_lastAssigned {texts : List String}
    {bindings : List (String × Number)} (hread : texts.mapM binding? = some bindings)
    {name : String} {value : Number} :
    (Table.ofList bindings).find? name = some value ↔
      ∃ x, value = .real x ∧ LastAssigned texts name x := by
  rw [mapM_eq_some_iff_forall₂] at hread
  have hlater {after : List String} {others : List (String × Number)}
      (hafter : List.Forall₂ (fun text binding => binding? text = some binding) after others) :
      name ∉ others.map Prod.fst ↔ ∀ later ∈ after, ∀ y, ¬ Assigns later name y := by
    constructor
    · intro hname later hmem y hassigns
      obtain ⟨binding, hbinding, hlater⟩ := exists_mem_of_forall₂ hafter hmem
      rw [binding?_eq_some_iff.mpr ⟨y, rfl, hassigns⟩] at hlater
      cases hlater
      exact hname (List.mem_map_of_mem hbinding)
    · intro hnone hname
      obtain ⟨⟨_, found⟩, hbinding, rfl⟩ := List.mem_map.mp hname
      obtain ⟨later, hmem, hlater⟩ := exists_mem_of_forall₂ hafter.flip hbinding
      obtain ⟨y, -, hassigns⟩ := binding?_eq_some_iff.mp hlater
      exact hnone later hmem y hassigns
  rw [Table.find?_ofList_eq_some_iff]
  constructor
  · rintro ⟨earlier, others, rfl, hlast⟩
    obtain ⟨before, rest, -, hrest, rfl⟩ := forall₂_append_right_iff.mp hread
    obtain ⟨text, after, htext, hafter, rfl⟩ := List.forall₂_cons_right_iff.mp hrest
    obtain ⟨x, rfl, hassigns⟩ := binding?_eq_some_iff.mp htext
    exact ⟨x, rfl, before, text, after, rfl, hassigns, (hlater hafter).mp hlast⟩
  · rintro ⟨x, rfl, before, text, after, rfl, hassigns, hlast⟩
    obtain ⟨earlier, rest, -, hrest, rfl⟩ := forall₂_append_left_iff.mp hread
    obtain ⟨binding, others, htext, hafter, rfl⟩ := List.forall₂_cons_left_iff.mp hrest
    rw [binding?_eq_some_iff.mpr ⟨x, rfl, hassigns⟩] at htext
    cases htext
    exact ⟨earlier, others, rfl, (hlater hafter).mpr hlast⟩

theorem mapM_binding?_eq_none_iff {texts : List String} :
    texts.mapM binding? = none ↔ ∃ text ∈ texts, Misassigns text := by
  simp only [mapM_eq_none_iff, binding?_eq_none_iff]

/-- One of the bindings read from texts has a name when one of the texts assigns to it. -/
theorem exists_binding_iff_exists_assigns {texts : List String}
    {bindings : List (String × Number)} (hread : texts.mapM binding? = some bindings)
    (name : String) :
    (∃ binding ∈ bindings, binding.1 = name) ↔ ∃ text ∈ texts, ∃ x, Assigns text name x := by
  rw [mapM_eq_some_iff_forall₂] at hread
  constructor
  · rintro ⟨⟨_, value⟩, hbinding, rfl⟩
    obtain ⟨text, htext, hfound⟩ := exists_mem_of_forall₂ hread.flip hbinding
    obtain ⟨x, -, hassigns⟩ := binding?_eq_some_iff.mp hfound
    exact ⟨text, htext, x, hassigns⟩
  · rintro ⟨text, htext, x, hassigns⟩
    obtain ⟨binding, hbinding, hfound⟩ := exists_mem_of_forall₂ hread htext
    rw [binding?_eq_some_iff.mpr ⟨x, rfl, hassigns⟩] at hfound
    cases hfound
    exact ⟨_, hbinding, rfl⟩

/-! ## The environment -/

/-- The environment with the settings that are given, or else configured, and with bindings. -/
def made (config : Config) (settings : Settings) (bindings : List (String × Number)) :
    Environment where
  idiom := settings.changes.idiom.getD config.idiom
  orientation := settings.changes.orientation.getD config.orientation
  vertical := settings.changes.vertical.getD config.vertical
  horizontal := settings.changes.horizontal.getD config.horizontal
  named := .ofList bindings

variable {settings : Settings} {bindings : List (String × Number)}

theorem environment_of_none (config : Config)
    (hread : settings.assignments.mapM binding? = none) :
    environment config settings = .error .badVariable := by
  rw [environment, hread]

theorem environment_of_reserved (config : Config)
    (hread : settings.assignments.mapM binding? = some bindings)
    (hreserved : ∃ binding ∈ bindings, binding.1 = Environment.reservedName) :
    environment config settings = .error .reservedVariable := by
  have hnone : config.environment? bindings = none :=
    Environment.withVariables?_eq_none_iff.mpr hreserved
  simp only [environment, hread, hnone]

theorem environment_of_free (config : Config)
    (hread : settings.assignments.mapM binding? = some bindings)
    (hfree : ¬ ∃ binding ∈ bindings, binding.1 = Environment.reservedName) :
    environment config settings = .ok (made config settings bindings) := by
  have hnames : ∀ binding ∈ bindings, binding.1 ≠ Environment.reservedName :=
    fun binding hbinding hname => hfree ⟨binding, hbinding, hname⟩
  have hsome : config.environment? bindings = some _ :=
    Environment.withVariables?_eq_some_iff.mpr ⟨hnames, rfl⟩
  simp only [environment, hread, hsome]
  rfl

theorem intended_made (config : Config)
    (hread : settings.assignments.mapM binding? = some bindings) :
    Intended config settings (made config settings bindings) where
  named _ _ := find?_ofList_eq_some_iff_lastAssigned hread
  idiom := rfl
  orientation := rfl
  vertical := rfl
  horizontal := rfl

theorem exists_mapM_binding?_eq_some
    (hassign : ∀ text ∈ settings.assignments, ¬ Misassigns text) :
    ∃ bindings, settings.assignments.mapM binding? = some bindings := by
  refine Option.ne_none_iff_exists'.mp fun hnone => ?_
  obtain ⟨text, htext, hmisassigns⟩ := mapM_binding?_eq_none_iff.mp hnone
  exact hassign text htext hmisassigns

/-- Settings are refused when one of their texts assigns nothing, whatever the others assign. -/
theorem environment_eq_badVariable_iff (config : Config) :
    environment config settings = .error .badVariable ↔
      ∃ text ∈ settings.assignments, Misassigns text := by
  rw [← mapM_binding?_eq_none_iff]
  constructor
  · intro hrefused
    cases hread : settings.assignments.mapM binding? with
    | none => rfl
    | some bindings =>
        by_cases hreserved : ∃ binding ∈ bindings, binding.1 = Environment.reservedName
        · cases (environment_of_reserved config hread hreserved).symm.trans hrefused
        · cases (environment_of_free config hread hreserved).symm.trans hrefused
  · exact environment_of_none config

/-- A variable of the reserved name makes every command break down. -/
theorem environment_of_assignsReserved (config : Config) (hreserved : AssignsReserved settings) :
    environment config settings = .error .reservedVariable := by
  obtain ⟨hassign, hname⟩ := hreserved
  obtain ⟨bindings, hread⟩ := exists_mapM_binding?_eq_some hassign
  exact environment_of_reserved config hread
    ((exists_binding_iff_exists_assigns hread _).mpr hname)

/-- Settings are refused when one of their texts assigns nothing, and otherwise give the environment
that they ask for, except for those that assign to the reserved name: these break down. -/
theorem buildsIntended_iff_not_assignsReserved (config : Config) (settings : Settings) :
    (BuildsIntended config settings ↔ ¬ AssignsReserved settings) ∧
      (AssignsReserved settings → environment config settings = .error .reservedVariable) := by
  refine ⟨⟨?_, ?_⟩, environment_of_assignsReserved config⟩
  · intro hbuilds hreserved
    obtain ⟨env, henv, -⟩ := hbuilds.built hreserved.assign
    cases henv.symm.trans (environment_of_assignsReserved config hreserved)
  · intro hreserved
    refine ⟨environment_eq_badVariable_iff config, fun hassign => ?_⟩
    obtain ⟨bindings, hread⟩ := exists_mapM_binding?_eq_some hassign
    have hfree : ¬ ∃ binding ∈ bindings, binding.1 = Environment.reservedName := by
      rw [exists_binding_iff_exists_assigns hread]
      exact fun hname => hreserved ⟨hassign, hname⟩
    exact ⟨_, environment_of_free config hread hfree, intended_made config hread⟩

/-- The settings of a command line with one variable, of the reserved name. -/
def selfSettings : Settings :=
  { assignments := ["self=1"] }

theorem assignsReserved_selfSettings : AssignsReserved selfSettings := by
  have hname : (binding? "self=1").map Prod.fst = some Environment.reservedName := by
    decide +kernel
  obtain ⟨⟨name, value⟩, hread, rfl⟩ := Option.map_eq_some_iff.mp hname
  obtain ⟨x, -, hassigns⟩ := binding?_eq_some_iff.mp hread
  refine ⟨?_, "self=1", List.mem_singleton_self _, x, hassigns⟩
  simp [selfSettings, ← binding?_eq_none_iff, hread]

theorem buildsIntended_iff_not_assignsReserved_self :
    AssignsReserved selfSettings ∧ environment {} selfSettings = .error .reservedVariable :=
  ⟨assignsReserved_selfSettings,
    (buildsIntended_iff_not_assignsReserved {} selfSettings).2 assignsReserved_selfSettings⟩

/-- The text assigns a number, and so the settings ask for an environment, but there is none. -/
theorem not_buildsIntended_selfSettings : ¬ BuildsIntended {} selfSettings := by
  intro hbuilds
  obtain ⟨env, henv, -⟩ := hbuilds.built assignsReserved_selfSettings.assign
  cases henv.symm.trans (environment_of_assignsReserved {} assignsReserved_selfSettings)

end Stylesheet.CommandLine
