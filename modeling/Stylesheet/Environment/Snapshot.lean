import Stylesheet.Environment.Provider
import Stylesheet.Number
import Stylesheet.Table

/-!
# Environments

An environment is a value: four settings and named variables.  Changing one gives another.
-/

namespace Stylesheet

/-- The state of a device, with the variables that an application adds. -/
structure Environment where
  idiom : Idiom := .phone
  orientation : Orientation := .portrait
  vertical : SizeClass := .regular
  horizontal : SizeClass := .compact
  named : Table Number := ∅

/-- New settings; those left out stay as they are. -/
structure Environment.Changes where
  idiom : Option Idiom := none
  orientation : Option Orientation := none
  vertical : Option SizeClass := none
  horizontal : Option SizeClass := none

namespace Environment

/-- Change some of the settings, and the variables too if others are given in their place. -/
def replace (env : Environment) (changes : Changes) (named : Option (Table Number) := none) :
    Environment where
  idiom := changes.idiom.getD env.idiom
  orientation := changes.orientation.getD env.orientation
  vertical := changes.vertical.getD env.vertical
  horizontal := changes.horizontal.getD env.horizontal
  named := named.getD env.named

/-- The name that stands for the environment itself and can be given to no variable. -/
def reservedName : String := "self"

/-- Bind variables, or fail if one of them has the reserved name. -/
def withVariables? (env : Environment) (bindings : List (String × Number)) : Option Environment :=
  if bindings.any (·.1 == reservedName) then none
  else some { env with named := env.named.insertAll bindings }

theorem any_reservedName_iff {bindings : List (String × Number)} :
    bindings.any (·.1 == reservedName) = true ↔
      ∃ binding ∈ bindings, binding.1 = reservedName := by
  simp only [List.any_eq_true, beq_iff_eq]

theorem withVariables?_eq_none_iff {env : Environment} {bindings : List (String × Number)} :
    env.withVariables? bindings = none ↔ ∃ binding ∈ bindings, binding.1 = reservedName := by
  rw [← any_reservedName_iff, withVariables?]
  split <;> simp_all

theorem withVariables?_eq_some_iff {env next : Environment} {bindings : List (String × Number)} :
    env.withVariables? bindings = some next ↔
      (∀ binding ∈ bindings, binding.1 ≠ reservedName) ∧
        { env with named := env.named.insertAll bindings } = next := by
  rw [withVariables?, Option.ite_none_left_eq_some, Option.some.injEq, any_reservedName_iff]
  simp only [not_exists, not_and, ne_eq]

/-- Variables are known as doubles; an integer beyond all doubles is a failure. -/
def provider (env : Environment) : Provider where
  symbol
    | .idiom => .ok env.idiom.code
    | .orientation => .ok env.orientation.code
    | .verticalSizeClass => .ok env.vertical.code
    | .horizontalSizeClass => .ok env.horizontal.code
  named name :=
    match env.named.find? name with
    | none => .ok none
    | some value => match value.toFloat? with
      | some x => .ok (some x)
      | none => .error Number.tooLarge

/-- The narrowest width, held upright, that makes a tablet. -/
def tabletWidth : Number := .integer 768

/-- The device class of a screen with the given shorter and longer side. -/
def idiomOfSides (short long : Number) : Idiom :=
  if short.ge tabletWidth then .iPad
  else
    let fits (idiom : Idiom) : Bool := match idiom.bounds? with
      | some (width, height) =>
          short.same (.integer width) && long.same (.integer height)
      | none => false
    ((Named.all : List Idiom).find? fits).getD .phone

/-- The environment of a screen: landscape if it is wider than tall, a tablet if it is wide, one of
the known phones if its sides are those of one, and a phone otherwise. -/
def ofScreen (width height : Number) : Environment where
  idiom := if height.lt width then idiomOfSides height width else idiomOfSides width height
  orientation := if height.lt width then .landscape else .portrait

/-- Whether two environments have equal settings and bind the same variables to equal numbers. -/
def same (a b : Environment) : Bool :=
  a.idiom == b.idiom && a.orientation == b.orientation && a.vertical == b.vertical
    && a.horizontal == b.horizontal && a.named.agree Number.same b.named

/-- Whether two environments are filed under one key: equal settings, and equal variables when
both are put in the order of their names. -/
def sameKey (a b : Environment) : Bool :=
  a.idiom == b.idiom && a.orientation == b.orientation && a.vertical == b.vertical
    && a.horizontal == b.horizontal
    && a.named.size == b.named.size
    && (a.named.sorted.zip b.named.sorted).all fun (x, y) =>
      x.1 == y.1 && x.2.same y.2

end Environment

end Stylesheet
