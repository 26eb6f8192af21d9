import MessageFormat.Batch.Session
import MessageFormat.CommandLine.Described
import MessageFormat.CommandLine.Invocation
import MessageFormat.CommandLine.Path
import MessageFormat.Json.Reader
import MessageFormat.Pattern.Probe
import MessageFormat.Rebuild.Supplied
import MessageFormat.Replacements.OfJson
import MessageFormat.Settings.Settings

/-!
# The program

What the program prints and how it ends, as a function of its command line and of the host that it
runs on. `run` looks at the command line first, then at the settings, and then carries out the
command. Faults in the settings, in a message and in replacements are printed and end the program
with status one. There are faults that it has no report for, the reasons in `Abort`; on these it
breaks off.
-/

namespace MessageFormat.CommandLine

/-- What the program runs on. -/
structure Host where
  /-- What is found under a file name. -/
  files : Path → FileState
  /-- The variables of the process. -/
  environment : Entries String String
  /-- The variables that the text of a file sets; a name may be there without a value. -/
  readVariables : String → Entries String (Option String)
  /-- The home directory that `~` or `~name` stands for, if it is known. -/
  homeOf : String → Option String
  /-- How many arrays and objects may be open at once when a value is read. -/
  nesting : Nat
  /-- The branches of a text are not nested too deep for the text to be parsed. -/
  shallow : String → Bool

/-- A fault that the program breaks off on. -/
inductive Abort where
  /-- A file that must be text is not UTF-8. -/
  | notUtf8
  /-- A file name starts with a home directory that is not known. -/
  | unknownHome
  /-- A file name holds a null character. -/
  | nullInName
  /-- An integer has more digits than can be read. -/
  | oversizedInteger
  /-- Arrays and objects, or the branches of a message, are nested too deep to be read. -/
  | tooDeep
  /-- A section of replacements is neither blank nor an object. -/
  | brokenSection
  /-- What was to be printed is no text. -/
  | unprintable
  deriving DecidableEq, Repr

/-- How the program ends. -/
inductive Outcome where
  /-- With a status, after printing on its two streams. -/
  | finished (status : Nat) (out err : String)
  /-- The command line was refused. -/
  | refused (refusal : Refusal)
  /-- It broke off. -/
  | aborted (reason : Abort)
  deriving DecidableEq, Repr

/-! ### Replacements from a file -/

/-- Why replacements cannot be had from a file. -/
inductive ReplacementsFault where
  /-- A fault that is reported. -/
  | reported (report : String)
  /-- A fault that the program breaks off on. -/
  | aborted (reason : Abort)
  deriving DecidableEq, Repr

/-- The report of a file that cannot be read. -/
def unreadable (name : String) (number : Nat) (reason : String) : ReplacementsFault :=
  .reported (s!"Translations file {name} could not be read: [Errno {number}] {reason}: " ++
    Text.quoteWord name)

/-- What becomes of a text that is no JSON. -/
def notJson (name : String) (fault : Json.Fault) : ReplacementsFault :=
  match fault.cause with
  | .oversizedInteger => .aborted .oversizedInteger
  | .tooDeep => .aborted .tooDeep
  | _ => .reported (s!"Translations file {name} is not valid JSON: " ++ fault.message)

/-- What becomes of a value that describes no replacements. -/
def notReplacements (fault : InputFault) : ReplacementsFault :=
  match fault.message? with
  | none => .aborted .brokenSection
  | some report =>
    match report.text? with
    | none => .aborted .unprintable
    | some report => .reported report

/-- The replacements that the text of a file describes. -/
def replacementsOf (nesting : Nat) (name text : String) : Except ReplacementsFault Supplied :=
  match Json.read nesting text with
  | .error fault => .error (notJson name fault)
  | .ok value => (Supplied.ofJson value).mapError notReplacements

/-- The replacements in the file under a path. -/
def readReplacements (host : Host) (path : Path) : Except ReplacementsFault Supplied :=
  match host.files path with
  | .missing => .error (unreadable path.toString 2 "No such file or directory")
  | .directory => .error (unreadable path.toString 21 "Is a directory")
  | .bytes content =>
    match Text.ofBytes? content with
    | none => .error (.aborted .notUtf8)
    | some text => replacementsOf host.nesting path.toString text

/-- The replacements in the file with a name. -/
def loadReplacements (host : Host) (file : String) : Except ReplacementsFault Supplied :=
  match (Path.ofString file).expandHome? host.homeOf with
  | none => .error (.aborted .unknownHome)
  | some path =>
    if path.holdsNull then .error (.aborted .nullInName) else readReplacements host path

/-! ### Commands -/

/-- What comes next once a text has been parsed, or else the report of why it is no message, after
what was printed before. -/
def withMessage (host : Host) (message err : String) (next : Message → Outcome) : Outcome :=
  if host.shallow message then
    match parse message with
    | .error e => .finished 1 ("Could not parse message: " ++ e.message ++ "\n") err
    | .ok m => next m
  else .aborted .tooDeep

/-- What is printed about a message. -/
def printMessage (host : Host) (message : String) (describe : Message → Json) : Outcome :=
  withMessage host message "" fun m => .finished 0 ((describe m).write ++ "\n") ""

/-- The options for rebuilding: those of the settings unless the command line says otherwise. -/
def rebuildWith (settings : Settings) (language : Option String) (complete : Option Bool) :
    Options :=
  let options := settings.toOptions
  { options with
    language := if language.getD "" = "" then options.language else language.getD ""
    completePlurals := complete.getD options.completePlurals }

/-- The end of a program that prints a rebuilt message, after what it printed before. -/
def printRebuilt (rebuilt : Option String) (err : String) : Outcome :=
  match rebuilt with
  | none => .aborted .unprintable
  | some text => .finished 0 (text ++ "\n") err

/-- A message is rebuilt with the replacements in a file. An empty file name means none. -/
def runRebuild (host : Host) (verbose debug : Bool) (options : Options) (message : String)
    (file : Option String) : Outcome :=
  let warning :=
    if verbose && !hasBranchMarker message then "Message has no plural or select constructs.\n"
    else ""
  withMessage host message warning fun m =>
    let loaded := if file.getD "" = "" then .ok none
      else (loadReplacements host (file.getD "")).map some
    match loaded with
    | .error (.reported report) => .finished 1 (report ++ "\n") warning
    | .error (.aborted reason) => .aborted reason
    | .ok supplied =>
      let traces := trace "cli.options" options.describe ++
        (supplied.map fun s => trace "cli.translations" s.describe).getD ""
      printRebuilt ((supplied.getD .empty).rebuild? m.toPattern options)
        (warning ++ if debug then traces else "")

/-- What is printed about the categories of a language. -/
def printRules (language : String) (kind : Plural.Kind) : Outcome :=
  let subtag := Plural.primarySubtag language
  let name := if subtag = "" then language else subtag
  let heading := match kind with
    | .cardinal => s!"{name} (cardinal):\n"
    | .ordinal => s!"{name} (ordinal):\n"
  let lines := (Plural.required language kind).map fun c =>
    "  " ++ Plural.describe c language kind ++ "\n"
  .finished 0 (heading ++ String.join lines) ""

/-- A command is carried out under settings. -/
def Invocation.run (i : Invocation) (settings : Settings) (host : Host) : Outcome :=
  match i.command with
  | .parse message => printMessage host message Message.describe
  | .segments message =>
    printMessage host message fun m => .array (m.excerpts.map Excerpt.describe)
  | .rebuild message language file complete =>
    runRebuild host i.verbose (i.debug || settings.debug) (rebuildWith settings language complete)
      message file
  | .rules language ordinal => printRules language (if ordinal then .ordinal else .cardinal)

/-- The program. -/
def run (host : Host) (args : List String) : Outcome :=
  match Invocation.ofArguments args with
  | .error refusal => .refused refusal
  | .ok invocation =>
    let file := host.files (Path.ofString envFileName)
    match Settings.load host.readVariables file host.environment with
    | .error .notUtf8 => .aborted .notUtf8
    | .error (.invalid fault) => .finished 1 (fault.message ++ "\n") ""
    | .ok settings => invocation.run settings host

end MessageFormat.CommandLine
