import Stylesheet.CommandLine.Arguments
import Stylesheet.Sheet.Load

/-!
# Running the command line

What a command prints and how it ends, as a function of its arguments, the files and the variables
of the process.
-/

namespace Stylesheet.CommandLine

/-- Why a command ends without an answer. -/
inductive Breakdown where
  | config (e : ConfigError)
  /-- A variable has the reserved name. -/
  | reservedVariable
  /-- A text holds a character or a scalar that cannot be read, or a key that cannot be shown. -/
  | sheet (e : LoadError)
  | read (e : ReadError)

/-- How a command ends. -/
inductive Outcome where
  /-- The arguments are wrong. -/
  | misused
  | brokenDown (why : Breakdown)
  /-- The command has printed what it had to say. -/
  | finished (code : Nat) (output errors : String)

/-- What the process sees. -/
structure World where
  /-- The text of a file, if there is one. -/
  file? : String → Option String
  /-- The value of a variable of the process, if it is set. -/
  setting? : String → Option String

structure LogLine where
  level : LogLevel
  source : String
  message : String

def LogLine.text (line : LogLine) : String :=
  let level := match line.level with
    | .notSet => "NOTSET"
    | .debug => "DEBUG"
    | .info => "INFO"
    | .warning => "WARNING"
    | .error => "ERROR"
    | .critical => "CRITICAL"
  s!"{level} {line.source}: {line.message}\n"

/-- The level at which diagnostics of a severity are logged. -/
def severityLevel : Severity → LogLevel
  | .info => .info
  | .warning => .warning
  | .error => .error

def compileLine (message : String) : LogLine :=
  ⟨.debug, "stylekit.expressions.evaluator", message⟩

/-- The lines for a diagnostic.  Compiling has a line of its own. -/
def diagnosticLines (d : Diagnostic) : List LogLine :=
  let line : LogLine := ⟨severityLevel d.severity, "stylekit.diagnostics", d.text⟩
  if d.code = .compileFailed then [compileLine d.message, line] else [line]

def loadedLine (sheet : Sheet) : LogLine :=
  ⟨.debug, "stylekit.loader", s!"Loaded {sheet.size} style definitions"⟩

/-- The log as it is shown at a level. -/
def showLog (level : LogLevel) (lines : List LogLine) : String :=
  String.join ((lines.filter fun line => level.rank ≤ line.level.rank).map LogLine.text)

/-- Drop the sequences that set colours from a text; `fuel` is its length. -/
def dropColors : Nat → List Char → List Char
  | 0, text => text
  | _, [] => []
  | fuel + 1, '\x1b' :: '[' :: rest =>
      match rest.dropWhile fun c => c == ';' || c == '?' || c.isDigit with
      | c :: after =>
          if c.isAlpha then dropColors fuel after else '\x1b' :: dropColors fuel ('[' :: rest)
      | [] => '\x1b' :: dropColors fuel ('[' :: rest)
  | fuel + 1, c :: rest => c :: dropColors fuel rest

/-- Lines as they are printed to something that shows no colours. -/
def printed (lines : List String) : String :=
  let text := (String.join (lines.map (· ++ "\n"))).toList
  String.ofList (dropColors text.length text)

/-- A text with a line feed for each of the three line breaks of common systems. -/
def unifyBreaks : List Char → List Char
  | [] => []
  | '\r' :: '\n' :: rest => '\n' :: unifyBreaks rest
  | '\r' :: rest => '\n' :: unifyBreaks rest
  | c :: rest => c :: unifyBreaks rest

/-- The pieces of a path between its slashes. -/
def pathPieces (path : String) : List String :=
  path.splitOn "/"

/-- A path without empty pieces and single points, which lead nowhere. -/
def plainPath (path : String) : String :=
  let root := if path.startsWith "/" then "/" else ""
  root ++ "/".intercalate ((pathPieces path).filter fun piece => piece != "" && piece != ".")

/-- The text of the file at a path; a path that ends in a slash or a point names none. -/
def World.open? (world : World) (path : String) : Option String :=
  match (pathPieces path).getLast? with
  | none | some "" | some "." => none
  | _ => world.file? (plainPath path)

/-- A sheet with what loading it left behind. -/
structure Loaded where
  sheet : Sheet
  diagnostics : List Diagnostic
  log : List LogLine

/-- Load the sheet in a text, or end the command. -/
def load (level : LogLevel) (provider : Provider) (text : String) : Except Outcome Loaded :=
  let loading := Sheet.load provider (String.ofList (unifyBreaks text.toList))
  let diagnostics := loading.diagnostics
  let log := diagnostics.flatMap diagnosticLines
  match loading.outcome with
  | .ok sheet => .ok { sheet, diagnostics, log := log ++ [loadedLine sheet] }
  | .error e =>
      match e.message? with
      | none => .error (.brokenDown (.sheet e))
      | some message =>
          .error (.finished 1 "" (showLog level log ++ printed ["Error: " ++ message]))

def printRule (readAs : Option ReadAs) (provider : Provider) (rule : Rule) :
    Logged Event ReadError String := do
  match readAs with
  | none => return ((← rule.resolve provider none).map Plain.text).getD "None"
  | some .integer => return (Plain.number (.integer (← Accessor.integer.read provider rule 0))).text
  | some .float => return (Plain.number (.real (← Accessor.float.read provider rule 0))).text
  | some .boolean => return (Plain.boolean (← Accessor.boolean.read provider rule false)).text
  | some .string => Accessor.string.read provider rule ""
  | some .font => return ((← Accessor.font.read? provider rule).map Font.text).getD "None"
  | some .color => return ((← Accessor.color.read? provider rule).map Color.text).getD "None"

def styleLines (style : String) (rules : Table Rule) : List String :=
  s!"{style} ({rules.size} rules)" :: rules.entries.map fun (name, rule) =>
    s!"  {name}: {rule.value.kind.text}" ++ if rule.value.isConditional then ", conditional" else ""

def arityText (f : Function) : String :=
  match f.maxArguments? with
  | none => s!"{f.minArguments}+ args"
  | some most =>
      if most = f.minArguments then s!"{f.minArguments} args"
      else s!"{f.minArguments}-{most} args"

def functionLines : List String :=
  Function.all.flatMap fun f =>
    s!"{f.name} ({arityText f}): {f.description}" :: f.examples.map ("    " ++ ·)

/-- The lines that repeat diagnostics at the end of a command. -/
def repeated (diagnostics : List Diagnostic) : List String :=
  diagnostics.map Diagnostic.text

def check (level : LogLevel) (provider : Provider) (path text : String) : Outcome :=
  match load level provider text with
  | .error outcome => outcome
  | .ok loaded =>
      let styles := loaded.sheet.styles.entries.flatMap fun (style, rules) =>
        styleLines style rules
      let total := s!"{loaded.sheet.size} style(s) loaded from {plainPath path}"
      .finished 0 (printed (styles ++ [total]))
        (showLog level loaded.log ++ printed (repeated loaded.diagnostics))

/-- Print a rule of a sheet text. -/
def get (level : LogLevel) (provider : Provider) (text style name : String)
    (readAs : Option ReadAs) : Outcome :=
  match load level provider text with
  | .error outcome => outcome
  | .ok loaded =>
      match loaded.sheet.rule? style name with
      | none =>
          .finished 1 ""
            (showLog level loaded.log ++ printed [s!"Error: no rule '{name}' in style '{style}'"])
      | some rule =>
          let reading := printRule readAs provider rule
          let log := loaded.log ++ reading.diagnostics.flatMap diagnosticLines
          match reading.outcome with
          | .error e => .brokenDown (.read e)
          | .ok value =>
              .finished 0 (printed [value])
                (showLog level log
                  ++ printed (repeated (loaded.diagnostics ++ reading.diagnostics)))

def eval (level : LogLevel) (provider : Provider) (source : String) : Outcome :=
  let e := Expression.compile source
  let compiling := match e.error? with
    | some error => [compileLine (e.compileFailure error none).message]
    | none => []
  let evaluation : Logged Event Empty Float := e.evaluate provider none
  let log := compiling ++ evaluation.diagnostics.flatMap diagnosticLines
  .finished (if evaluation.diagnostics.isEmpty then 0 else 1)
    (printed [Decimal.toCompactText evaluation.value])
    (showLog level log ++ printed (repeated evaluation.diagnostics))

/-- Run a command in the environment that its settings make. -/
def withEnvironment (config : Config) (settings : Settings) (run : Provider → Outcome) : Outcome :=
  match environment config settings with
  | .error .badVariable => .misused
  | .error .reservedVariable => .brokenDown .reservedVariable
  | .ok env => run env.provider

def Command.run (world : World) (config : Config) : Command → Outcome
  | .check path settings =>
      match world.open? path with
      | none => .misused
      | some text =>
          withEnvironment config settings fun provider =>
            CommandLine.check config.logLevel provider path text
  | .get path style rule readAs settings =>
      match world.open? path with
      | none => .misused
      | some text =>
          withEnvironment config settings fun provider =>
            CommandLine.get config.logLevel provider text style rule readAs
  | .eval expression settings =>
      withEnvironment config settings fun provider =>
        CommandLine.eval config.logLevel provider expression
  | .functions => .finished 0 (printed functionLines) ""

/-- Run the command line.  The command has to exist before the configuration is read, and its
arguments are read after that. -/
def run (world : World) (arguments : List String) : Outcome :=
  match command arguments with
  | none => .misused
  | some (readArguments, rest) =>
      match Config.ofVariables world.setting? with
      | .error e => .brokenDown (.config e)
      | .ok config =>
          match readArguments rest with
          | none => .misused
          | some command => command.run world config

end Stylesheet.CommandLine
