import MessageFormat.CommandLine.Arguments

/-!
# Invocations

The commands of the program with their arguments, and how they are read from a command line.
Options of the whole program come before the command, options of a command after it.
-/

namespace MessageFormat.CommandLine

/-- A command with its arguments. -/
inductive Command where
  /-- Print the elements of a message. -/
  | parse (message : String)
  /-- Print the segments of a message. -/
  | segments (message : String)
  /-- Rebuild a message, perhaps for another language, with replacements from a file, and with or
  without completing its plurals. -/
  | rebuild (message : String) (language replacements : Option String) (complete : Option Bool)
  /-- Print the plural categories of a language. -/
  | rules (language : String) (ordinal : Bool)
  deriving DecidableEq, Repr

/-- A command and the options of the whole program. -/
structure Invocation where
  /-- Progress is reported. -/
  verbose : Bool
  /-- Traces are printed. -/
  debug : Bool
  /-- The command. -/
  command : Command
  deriving DecidableEq, Repr

/-- The name of the program. -/
def programName : String := "icuforge"

/-- The names of the commands. -/
def commandNames : List String :=
  ["parse", "segments", "reconstruct", "rules"]

/-- The grammar of the whole command line. -/
def programGrammar : Grammar where
  program := programName
  options := [helpOption, ⟨["-v", "--verbose"], false⟩, ⟨["--debug"], false⟩]
  positional := "command"
  takesRest := true

/-- The grammar of a command with one positional argument. -/
def commandGrammar (name positional : String) (options : List OptionSpec) : Grammar where
  program := programName ++ " " ++ name
  options := helpOption :: options
  positional := positional
  takesRest := false

/-- The options of the command that rebuilds a message. -/
def rebuildOptions : List OptionSpec :=
  [⟨["-t", "--target-language"], true⟩, ⟨["--translations"], true⟩,
    ⟨["--validate", "--no-validate"], false⟩]

/-- The grammar of a command. -/
def grammarOf (name : String) : Grammar :=
  if name = "reconstruct" then commandGrammar name "message" rebuildOptions
  else if name = "rules" then commandGrammar name "language" [⟨["--ordinal"], false⟩]
  else commandGrammar name "message" []

/-- The command with this name, the positional argument and the options found. -/
def makeCommand (name argument : String) (f : Found) : Command :=
  if name = "parse" then .parse argument
  else if name = "segments" then .segments argument
  else if name = "rules" then .rules argument (f.has "--ordinal")
  else
    .rebuild argument (f.value? "--target-language") (f.value? "--translations")
      ((f.name? "--validate").map (· == "--validate"))

/-- The command that some words make, and the words that nothing accounts for. -/
def readCommand (words : List String) : Except Refusal (Command × List String) :=
  let name := words.headD ""
  if name ∈ commandNames then
    (grammarOf name).read words.tail |>.map fun (found, argument) =>
      (makeCommand name (argument.headD "") found, found.extras)
  else .error (.fault programName (.invalidChoice "command" name commandNames))

/-- The invocation that the words of a command line make. -/
def Invocation.ofArguments (args : List String) : Except Refusal Invocation :=
  match programGrammar.read args with
  | .error refusal => .error refusal
  | .ok (found, words) =>
    match readCommand words with
    | .error refusal => .error refusal
    | .ok (command, extras) =>
      if found.extras ++ extras = [] then
        .ok ⟨found.has "--verbose", found.has "--debug", command⟩
      else .error (.fault programName (.unrecognized (found.extras ++ extras)))

end MessageFormat.CommandLine
