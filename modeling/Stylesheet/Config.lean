import Stylesheet.Environment.Snapshot
import Stylesheet.Text.Quoted
import Stylesheet.Text.Uppercase

/-!
# Configuration

The defaults of the command line come from variables of the process: a logging level and the
settings of the default environment.
-/

namespace Stylesheet

/-- How urgent a line of the log is; `notSet` is below all others. -/
inductive LogLevel where
  | notSet
  | debug
  | info
  | warning
  | error
  | critical
deriving DecidableEq, Repr

/-- The rank of a level; a log shows the lines at or above the rank that it is set to. -/
def LogLevel.rank : LogLevel → Nat
  | notSet => 0
  | debug => 10
  | info => 20
  | warning => 30
  | error => 40
  | critical => 50

def LogLevel.ofName? : String → Option LogLevel
  | "NOTSET" => some notSet
  | "DEBUG" => some debug
  | "INFO" => some info
  | "WARNING" | "WARN" => some warning
  | "ERROR" => some error
  | "CRITICAL" | "FATAL" => some critical
  | _ => none

structure Config where
  /-- The logging level as it was named, in capitals. -/
  logName : String := "WARNING"
  logLevel : LogLevel := .warning
  idiom : Idiom := .phone
  orientation : Orientation := .portrait
  vertical : SizeClass := .regular
  horizontal : SizeClass := .compact

namespace Config

/-- The variables of the process that configure it. -/
def levelSetting : String := "STYLEKIT_LOG_LEVEL"

def idiomSetting : String := "STYLEKIT_IDIOM"

def orientationSetting : String := "STYLEKIT_ORIENTATION"

def verticalSetting : String := "STYLEKIT_VERTICAL_SIZE_CLASS"

def horizontalSetting : String := "STYLEKIT_HORIZONTAL_SIZE_CLASS"

def settingNames : List String :=
  [levelSetting, idiomSetting, orientationSetting, verticalSetting, horizontalSetting]

end Config

/-- Why a configuration is refused. -/
inductive ConfigError where
  | unknownLevel (name : String)
  /-- The variable names none of the constants that it may name. -/
  | unknownConstant (setting value : String) (choices : List String)

def ConfigError.message : ConfigError → String
  | unknownLevel name => s!"{Config.levelSetting}={Text.quoted name} is not a logging level"
  | unknownConstant setting value choices =>
      s!"{setting}={Text.quoted value} is not one of: " ++ ", ".intercalate choices

namespace Config

/-- Read the constant that a variable names.  An unset or empty variable means the default. -/
def constant {α : Type} [Named α] (vars : String → Option String) (setting : String)
    (default : α) : Except ConfigError α :=
  match vars setting with
  | none | some "" => .ok default
  | some text => match Named.ofName? text with
    | some value => .ok value
    | none => .error (.unknownConstant setting text (Named.names α))

def ofVariables (vars : String → Option String) : Except ConfigError Config := do
  let logName := match vars levelSetting with
    | some text => String.ofList (Text.upper text.toList)
    | none => "WARNING"
  let some logLevel := LogLevel.ofName? logName | .error (.unknownLevel logName)
  let idiom ← constant vars idiomSetting Idiom.phone
  let orientation ← constant vars orientationSetting Orientation.portrait
  let vertical ← constant vars verticalSetting SizeClass.regular
  let horizontal ← constant vars horizontalSetting SizeClass.compact
  return { logName, logLevel, idiom, orientation, vertical, horizontal }

/-- The default environment with variables, or nothing if one has the reserved name. -/
def environment? (config : Config) (bindings : List (String × Number)) : Option Environment :=
  Environment.withVariables?
    { idiom := config.idiom
      orientation := config.orientation
      vertical := config.vertical
      horizontal := config.horizontal }
    bindings

end Config

end Stylesheet
