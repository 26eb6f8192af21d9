import MessageFormat.CommandLine.Program
import MessageFormat.Settings.EnvFile

/-!
# Running the program

Reads the files and variables that `run` may ask for, and prints what it answers. Variables in a
file are read with `EnvFile.read`, and messages are parsed at any depth.
-/

open MessageFormat
open MessageFormat.CommandLine

/-- What is found under a file name. -/
def stateOfFile (name : String) : IO FileState := do
  try
    return .bytes (← IO.FS.readBinFile name)
  catch
    | .noFileOrDirectory .. => return .missing
    | _ => return .directory

/-- The values of some variables of the process. -/
def environmentOf (names : List String) : IO (Entries String String) := do
  let mut found := []
  for name in names do
    if let some value ← IO.getEnv name then
      found := Entries.put name value found
  return found

/-- The names of the variables that settings may depend on. -/
def variableNames (file : FileState) : List String :=
  let settings := Setting.all.map Setting.key
  match file with
  | .bytes content =>
    match Text.ofBytes? content with
    | some text => settings ++ EnvFile.referredNames text.toList
    | none => settings
  | _ => settings

/-- The home directory that a step stands for, from the variable that names the user's own. Those of
others are not looked up. -/
def homeFrom (own : Option String) (step : String) : Option String :=
  if step = "~" then
    (own.filter fun home => home.toList.head? ≠ some '~').map fun home =>
      if home = "" then "/" else home
  else none

/-- The file that a command line asks for, if it asks for one. -/
def fileOf (homeOf : String → Option String) (args : List String) : Option Path :=
  match Invocation.ofArguments args with
  | .ok ⟨_, _, .rebuild _ _ (some file) _⟩ => (Path.ofString file).expandHome? homeOf
  | _ => none

/-- How many arrays and objects may be open at once in a value. -/
def nestingLimit : Nat := 990

/-- Prints how the program ended and returns its exit status. -/
def report : Outcome → IO UInt32
  | .finished status out err => do
    (← IO.getStderr).putStr err
    (← IO.getStdout).putStr out
    return status.toUInt32
  | .refused refusal => do
    match refusal.message? with
    | none => return 0
    | some message =>
      (← IO.getStderr).putStrLn message
      return 2
  | .aborted _ => do
    (← IO.getStderr).putStrLn "Input could not be read"
    return 1

def main (args : List String) : IO UInt32 := do
  let homeOf := homeFrom (← IO.getEnv "HOME")
  let settingsPath := Path.ofString envFileName
  let settingsFile ← stateOfFile settingsPath.toString
  let replacementsPath := fileOf homeOf args
  let replacementsFile ← match replacementsPath with
    | some path => stateOfFile path.toString
    | none => pure .missing
  let files := fun path =>
    if some path = replacementsPath then replacementsFile
    else if path = settingsPath then settingsFile
    else .missing
  let environment ← environmentOf (variableNames settingsFile)
  let readVariables := EnvFile.read environment
  let shallow := fun _ => true
  report (run { files, environment, readVariables, homeOf, nesting := nestingLimit, shallow } args)
