import Stylesheet.CommandLine.Run

/-!
# The program

Reads what the process sees, runs the command line and prints what it answers.
-/

namespace Stylesheet.CommandLine

def readFile? (path : String) : IO (Option String) := do
  try
    return some (← IO.FS.readFile path)
  catch _ =>
    return none

/-- The files that arguments name, and the variables that are set. -/
def observe (arguments : List String) : IO World := do
  let files ← arguments.filterMapM fun path => do
    return (← readFile? path).map (plainPath path, ·)
  let settings ← Config.settingNames.filterMapM fun name => do
    return (← IO.getEnv name).map (name, ·)
  return { file? := fun path => files.lookup path, setting? := fun name => settings.lookup name }

def Breakdown.message : Breakdown → String
  | config e => e.message
  | reservedVariable => s!"A variable cannot be named {Environment.reservedName}"
  | sheet _ => "The file cannot be read as a sheet"
  | read .integerTooLarge => "An integer is too large"

end Stylesheet.CommandLine

open Stylesheet.CommandLine in
def main (arguments : List String) : IO UInt32 := do
  match run (← observe arguments) arguments with
  | .misused =>
      IO.eprintln "Usage: check PATH | get PATH STYLE RULE | eval EXPRESSION | functions"
      return 2
  | .brokenDown why =>
      IO.eprintln why.message
      return 1
  | .finished code output errors =>
      IO.print output
      IO.eprint errors
      return code.toUInt32
