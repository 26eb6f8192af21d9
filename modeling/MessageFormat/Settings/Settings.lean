import MessageFormat.Replacements
import MessageFormat.Text.Blank
import MessageFormat.Text.File

/-!
# Settings

Four settings can be given as variables, in a file or in the environment of the process. The
variables of the process are merged over those of the file, together with a table that says which
layer each value came from, and a setting that neither layer gives has its default.
`Settings.ofLayers` reads the merged values and reports all that are invalid together, each with its
layer. A blank language is reported alone, because it is found before the values are read.
-/

namespace MessageFormat

/-- The settings. -/
inductive Setting where
  | language
  | completePlurals
  | keepExactMatches
  | debug
  deriving DecidableEq, Repr

namespace Setting

/-- The settings in the order in which their faults are reported. -/
def all : List Setting :=
  [.language, .completePlurals, .keepExactMatches, .debug]

/-- The variable that gives a setting. -/
def key : Setting → String
  | .language => "ICUFORGE_TARGET_LANGUAGE"
  | .completePlurals => "ICUFORGE_VALIDATE_CATEGORIES"
  | .keepExactMatches => "ICUFORGE_PRESERVE_EXACT_MATCHES"
  | .debug => "ICUFORGE_DEBUG"

end Setting

/-! ### Layers -/

/-- Where the value of a setting came from. -/
inductive Layer where
  /-- A file of variables. -/
  | file
  /-- The environment of the process. -/
  | process
  deriving DecidableEq, Repr

/-- The name of a layer in reports. -/
def Layer.name : Layer → String
  | .file => ".env"
  | .process => "process"

/-- The variables that have been merged, and the layers that they came from. -/
structure Merged where
  /-- The values. -/
  values : Entries String String := []
  /-- The layers. -/
  sources : Entries String Layer := []
  deriving DecidableEq, Repr

namespace Merged

/-- One more variable of a layer. It is taken if it gives a setting, and then over the value that
the setting had. -/
def add (layer : Layer) (m : Merged) (entry : String × String) : Merged :=
  if entry.1 ∈ Setting.all.map Setting.key then
    { values := m.values.put entry.1 entry.2, sources := m.sources.put entry.1 layer }
  else m

/-- The variables of one more layer, in alphabetical order. -/
def merge (m : Merged) (layer : Layer) (given : Entries String String) : Merged :=
  (given.mergeSort fun a b => a.1 ≤ b.1).foldl (add layer) m

end Merged

/-- The variables of the layers. -/
structure Layers where
  /-- What the file says; a name may be there without a value. -/
  file : Entries String (Option String)
  /-- The environment of the process. -/
  process : Entries String String

namespace Layers

/-- The names of the file that have a value, with their values. -/
def given (l : Layers) : Entries String String :=
  l.file.filterMap fun entry => entry.2.map fun value => (entry.1, value)

/-- The variables of both layers. -/
def merged (l : Layers) : Merged :=
  (({} : Merged).merge .file l.given).merge .process l.process

end Layers

/-! ### Faults -/

/-- What is wrong with merged values. -/
inductive SettingsIssue where
  /-- The language is blank. -/
  | blankLanguage
  /-- The value of a setting is neither true nor false. -/
  | notBoolean (setting : Setting)
  deriving DecidableEq, Repr

namespace SettingsIssue

/-- The variable at fault. A blank language is a fault of the values as a whole, which has no name. -/
def location : SettingsIssue → String
  | .blankLanguage => ""
  | .notBoolean setting => setting.key

/-- What is wrong. -/
def message : SettingsIssue → String
  | .blankLanguage => "Value error, ICUFORGE_TARGET_LANGUAGE must not be empty."
  | .notBoolean _ => "Input should be a valid boolean, unable to interpret input"

/-- The line of a report, with the layer of the variable if it came from one. -/
def line (sources : Entries String Layer) (i : SettingsIssue) : String :=
  let place := if i.location = "" then "" else i.location ++ ": "
  let origin := match sources.get? i.location with
    | none => ""
    | some layer => s!" (source: env:{layer.name}:{i.location})"
  "- " ++ place ++ i.message ++ origin

end SettingsIssue

/-- Why merged values make no settings. -/
structure SettingsFault where
  /-- What is wrong with them. -/
  issues : List SettingsIssue
  /-- The layers that they came from. -/
  sources : Entries String Layer
  deriving DecidableEq, Repr

namespace SettingsFault

/-- The lines of a report. -/
def lines (f : SettingsFault) : List String :=
  f.issues.map (SettingsIssue.line f.sources)

/-- The report of a fault. -/
def message (f : SettingsFault) : String :=
  "\n".intercalate ("Configuration validation errors detected:" :: f.lines)

end SettingsFault

/-! ### Values -/

/-- The words for true, in lowercase. -/
def trueWords : List String :=
  ["1", "on", "t", "true", "y", "yes"]

/-- The words for false, in lowercase. -/
def falseWords : List String :=
  ["0", "off", "f", "false", "n", "no"]

/-- A word with its ASCII letters in lowercase. -/
def lowercaseWord (word : String) : String :=
  String.ofList (word.toList.map Char.toLower)

/-- The truth value that a word means. Only ASCII letters may be capitals. -/
def readBoolean (word : String) : Option Bool :=
  if lowercaseWord word ∈ trueWords then some true
  else if lowercaseWord word ∈ falseWords then some false
  else none

/-- A language as it is kept: without blanks around it and with hyphens for underscores. -/
def tidyLanguage (value : String) : String :=
  String.ofList ((Text.strip value.toList).map fun c => if c = '_' then '-' else c)

/-- The values of all settings. -/
structure Settings where
  /-- The language whose plural categories are required. -/
  language : String := "en"
  /-- Plurals get the variants that the language requires. -/
  completePlurals : Bool := true
  /-- Exact matches of the source are kept when the translated variants lack them. -/
  keepExactMatches : Bool := true
  /-- Traces are printed. -/
  debug : Bool := false
  deriving DecidableEq, Repr

namespace Settings

/-- The settings that are either true or false. -/
def booleans : List Setting :=
  [.completePlurals, .keepExactMatches, .debug]

/-- The language if none is given. -/
def defaultLanguage : String := "en"

/-- The default of a setting that is either true or false. -/
def defaultBoolean : Setting → Bool
  | .debug => false
  | _ => true

/-- The values with a tidy language; none if the language is blank. -/
def tidied? (values : Entries String String) : Option (Entries String String) :=
  match values.get? Setting.language.key with
  | none => some values
  | some value =>
    if tidyLanguage value = "" then none
    else some (values.put Setting.language.key (tidyLanguage value))

/-- The truth value of a setting; none if its value is no truth value. -/
def boolean? (values : Entries String String) (s : Setting) : Option Bool :=
  match values.get? s.key with
  | none => some (defaultBoolean s)
  | some value => readBoolean value

/-- The settings that values with a tidy language say, or what is wrong with them. -/
def ofTidy (values : Entries String String) : Except (List SettingsIssue) Settings :=
  match boolean? values .completePlurals, boolean? values .keepExactMatches,
      boolean? values .debug with
  | some completePlurals, some keepExactMatches, some debug =>
    let language := (values.get? Setting.language.key).getD defaultLanguage
    .ok { language, completePlurals, keepExactMatches, debug }
  | _, _, _ =>
    .error ((booleans.filter fun s => (boolean? values s).isNone).map .notBoolean)

/-- The settings that values say, or what is wrong with them. -/
def ofValues (values : Entries String String) : Except (List SettingsIssue) Settings :=
  match tidied? values with
  | none => .error [.blankLanguage]
  | some values => ofTidy values

/-- The settings that the layers give. -/
def ofLayers (l : Layers) : Except SettingsFault Settings :=
  (ofValues l.merged.values).mapError fun issues => ⟨issues, l.merged.sources⟩

/-- How messages are rebuilt under the settings. -/
def toOptions (s : Settings) : Options where
  language := s.language
  completePlurals := s.completePlurals
  keepExactMatches := s.keepExactMatches

end Settings

/-! ### Loading -/

/-- Why settings cannot be loaded. -/
inductive LoadFault where
  /-- The file of variables is not UTF-8. -/
  | notUtf8
  /-- The values in force make no settings. -/
  | invalid (fault : SettingsFault)
  deriving DecidableEq, Repr

/-- The name of the file of variables. -/
def envFileName : String := ".env"

/-- The settings that a file of variables and the environment give, where `readVariables` says which
variables the text of a file sets. A directory in place of the file counts as no file. -/
def Settings.load (readVariables : String → Entries String (Option String)) (file : FileState)
    (environment : Entries String String) : Except LoadFault Settings :=
  let entries := match file with
    | .bytes content => (Text.ofBytes? content).map readVariables
    | _ => some []
  match entries with
  | none => .error .notUtf8
  | some file => (Settings.ofLayers ⟨file, environment⟩).mapError .invalid

/-- The settings that were loaded last, and the directory that they were loaded from; none is the
working directory. -/
abbrev SettingsCache :=
  Option (Option String × Settings)

/-- The settings of a directory, whether they were in the cache, and the cache afterwards. Settings
that cannot be loaded leave the cache as it is. -/
def SettingsCache.get (cache : SettingsCache) (directory : Option String)
    (load : Unit → Except LoadFault Settings) :
    Except LoadFault (Settings × Bool) × SettingsCache :=
  match cache with
  | some (cached, settings) =>
    if cached = directory then (.ok (settings, true), cache) else loaded
  | none => loaded
where
  /-- The settings that are loaded anew. -/
  loaded : Except LoadFault (Settings × Bool) × SettingsCache :=
    match load () with
    | .error fault => (.error fault, cache)
    | .ok settings => (.ok (settings, false), some (directory, settings))

end MessageFormat
