import Stylesheet.Config
import Stylesheet.Decimal.Numeral
import Stylesheet.Text.Blank

/-!
# Arguments of the command line

A command is followed by its arguments and options in any order.  Every option takes a value, as
the next argument or behind a sign of equality.  Behind `--` there are no options.
-/

namespace Stylesheet.CommandLine

/-- The types that a rule can be read as. -/
inductive ReadAs where
  | integer
  | float
  | boolean
  | string
  | font
  | color
deriving DecidableEq, Repr

instance : Named ReadAs where
  all := [.integer, .float, .boolean, .string, .font, .color]
  name
    | .integer => "integer"
    | .float => "float"
    | .boolean => "boolean"
    | .string => "string"
    | .font => "font"
    | .color => "color"

/-- What the options of a command change in the configured environment. -/
structure Settings where
  changes : Environment.Changes := {}
  /-- Variables as they are written, `NAME=NUMBER`. -/
  assignments : List String := []

/-- What is asked for. -/
inductive Command where
  /-- List the styles of a file. -/
  | check (path : String) (settings : Settings)
  /-- Print a rule of a style. -/
  | get (path style rule : String) (readAs : Option ReadAs) (settings : Settings)
  /-- Print the value of an expression. -/
  | eval (expression : String) (settings : Settings)
  /-- List the functions of expressions. -/
  | functions

structure Sorted where
  arguments : List String := []
  /-- The values of options, in order. -/
  options : List (String × String) := []

def splitAssignment? (text : String) : Option (String × String) :=
  let chars := text.toList
  let name := chars.takeWhile (· != '=')
  match chars.drop name.length with
  | [] => none
  | _ :: value => some (String.ofList name, String.ofList value)

/-- Sort arguments, given the options that there are; an unknown option or one without a value is an
error. -/
def sort? (known : List String) : List String → Option Sorted
  | [] => some {}
  | "--" :: rest => some { arguments := rest }
  | argument :: rest =>
      if argument.startsWith "-" && argument != "-" then
        match splitAssignment? argument with
        | some (name, value) => do
            if !known.contains name then none
            let sorted ← sort? known rest
            some { sorted with options := (name, value) :: sorted.options }
        | none =>
            match rest with
            | [] => none
            | value :: rest => do
                if !known.contains argument then none
                let sorted ← sort? known rest
                some { sorted with options := (argument, value) :: sorted.options }
      else do
        let sorted ← sort? known rest
        some { sorted with arguments := argument :: sorted.arguments }

/-- The constant that an option names, if it is given; the last one given counts. -/
def constant? {α : Type} [Named α] (sorted : Sorted) (option : String) : Option (Option α) :=
  match sorted.options.reverse.lookup option with
  | none => some none
  | some name => (Named.ofName? name).map some

def settingOptions : List String :=
  ["--idiom", "--orientation", "--vertical", "--horizontal", "--var"]

/-- What the options change in the environment. -/
def settings? (sorted : Sorted) : Option Settings := do
  some
    { changes :=
        { idiom := ← constant? sorted "--idiom"
          orientation := ← constant? sorted "--orientation"
          vertical := ← constant? sorted "--vertical"
          horizontal := ← constant? sorted "--horizontal" }
      assignments := (sorted.options.filter (·.1 == "--var")).map Prod.snd }

/-- A command by its name, as a reader of its arguments. -/
def command? : String → Option (List String → Option Command)
  | "check" => some fun arguments => do
      let sorted ← sort? settingOptions arguments
      match sorted.arguments with
      | [path] => some (.check path (← settings? sorted))
      | _ => none
  | "get" => some fun arguments => do
      let sorted ← sort? ("--as" :: settingOptions) arguments
      match sorted.arguments with
      | [path, style, rule] =>
          some (.get path style rule (← constant? sorted "--as") (← settings? sorted))
      | _ => none
  | "eval" => some fun arguments => do
      let sorted ← sort? settingOptions arguments
      match sorted.arguments with
      | [expression] => some (.eval expression (← settings? sorted))
      | _ => none
  | "functions" => some fun arguments => do
      let sorted ← sort? [] arguments
      match sorted.arguments with
      | [] => some .functions
      | _ => none
  | _ => none

/-- Separate the command and its arguments.  Nothing but `--` may come before it. -/
def command (arguments : List String) : Option ((List String → Option Command) × List String) :=
  let arguments := match arguments with
    | "--" :: rest => rest
    | _ => arguments
  match arguments with
  | [] => none
  | name :: rest => (command? name).map (·, rest)

/-- Read a variable: a name that is not empty, a sign of equality and a number.  White space around
the name does not count. -/
def binding? (text : String) : Option (String × Number) := do
  let (name, value) ← splitAssignment? text
  if name.isEmpty then none
  let number ← Decimal.readFloat? value.toList
  some (String.ofList (Text.trim name.toList), .real number)

inductive SettingsError where
  /-- A variable is not of the form `NAME=NUMBER`. -/
  | badVariable
  /-- A variable has the reserved name. -/
  | reservedVariable
deriving DecidableEq, Repr

def environment (config : Config) (settings : Settings) :
    Except SettingsError Environment :=
  match settings.assignments.mapM binding? with
  | none => .error .badVariable
  | some bindings =>
      match config.environment? bindings with
      | none => .error .reservedVariable
      | some env => .ok (env.replace settings.changes)

end Stylesheet.CommandLine
