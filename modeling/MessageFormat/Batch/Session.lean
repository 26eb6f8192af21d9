import MessageFormat.Batch.Segment
import MessageFormat.Json.Printer
import MessageFormat.Rebuild.Rebuild

/-!
# Sessions

A session takes batches of texts through translating: `prepare` reads the texts and cuts them into
segments, `apply` puts translated segments back and rebuilds the messages. Neither ever fails. A
text that is no message is handled as a whole, a segment that was not translated keeps its text,
and each such case is noted. `summary` tells what the last batch held and all that was noted.

What a step prints is part of its outcome: the notices and, if the session is asked for them,
progress lines and traces.
-/

namespace MessageFormat

/-- Something that a session had to work around. -/
inductive Notice where
  /-- A text is no message. -/
  | notAMessage (unit : String) (error : ParseError)
  /-- A segment was not translated. -/
  | untranslated (segment : String)
  deriving DecidableEq, Repr

namespace Notice

/-- The name of the kind of notice. -/
def category : Notice → String
  | .notAMessage _ _ => "PARSE"
  | .untranslated _ => "TRANSLATION"

/-- What happened and what was done about it. -/
def message : Notice → String
  | .notAMessage unit _ => s!"Message {unit} is not valid ICU; translating it as plain text."
  | .untranslated segment =>
    s!"Translation missing for segment {segment}. Keeping the source text."

/-- Why it happened, where that is not plain. -/
def details? : Notice → Option String
  | .notAMessage _ error => some error.message
  | .untranslated _ => none

/-- The notice as it is printed. -/
def line (n : Notice) : String :=
  match n.details? with
  | none => n.message ++ "\n"
  | some details => n.message ++ " (" ++ details ++ ")\n"

end Notice

/-- A value printed under a label for those who look for errors. -/
def trace (label : String) (value : Json) : String :=
  "[icuforge][debug] " ++ label ++ ":\n" ++ value.write ++ "\n"

/-- The state of a session. -/
structure Session where
  /-- How messages are rebuilt. -/
  options : Options
  /-- Progress lines are printed. -/
  verbose : Bool := false
  /-- Traces are printed. -/
  debug : Bool := false
  /-- Everything noted so far. -/
  notices : List Notice := []
  /-- The units of the last batch that was prepared. -/
  units : List BatchUnit := []
  /-- The segments of that batch. -/
  segments : List Segment := []

/-- The result of a step, the notices that it added, and what it printed. -/
structure StepResult (α : Type) where
  /-- The result. -/
  value : α
  /-- The notices. -/
  notices : List Notice
  /-- What was printed on the first stream. -/
  out : String
  /-- What was printed on the second stream. -/
  err : String

namespace Session

/-- A new session for a language. Its plurals are always completed. -/
def start (language : String) (options : Options) (verbose debug : Bool) : Session :=
  { options := { options with language, completePlurals := true }, verbose, debug }

/-! ### Preparing -/

/-- The unit of a text, and the notice if the text is no message. -/
def readUnit (id source : String) : BatchUnit × Option Notice :=
  match parse source with
  | .ok m => (BatchUnit.segment { id, source, message := some m }, none)
  | .error e => (BatchUnit.segment { id, source }, some (.notAMessage id e))

/-- The trace of the segments of a batch. -/
def segmentTrace (segments : List Segment) : String :=
  trace "workflow.segments" <| .array <| segments.map fun s =>
    .ofMembers [("id", .string s.id), ("text", .string s.text),
      ("context", Json.ofString? s.origin.context?)]

/-- The progress line of a prepared batch. -/
def preparedLine (units : List BatchUnit) (segments : List Segment) : String :=
  s!"Prepared {units.length} messages ({units.countP BatchUnit.isOpaque} opaque), " ++
    s!"{segments.length} segments.\n"

/-- The texts of a batch become units with segments. -/
def prepare (s : Session) (texts : Entries String String) :
    Session × StepResult (List BatchUnit) :=
  let read := texts.map fun (id, source) => readUnit id source
  let units := read.map (·.1)
  let notices := read.filterMap (·.2)
  let segments := units.flatMap (·.segments)
  let out := String.join (notices.map Notice.line) ++
    if s.verbose then preparedLine units segments else ""
  let err := if s.debug then segmentTrace segments else ""
  ({ s with notices := s.notices ++ notices, units, segments }, ⟨units, notices, out, err⟩)

/-! ### Applying -/

/-- The replacements with the text of one more segment. Text that is the same as before needs no
replacement. -/
def route (r : Replacements) (s : Segment) (text : String) : Replacements :=
  match s.origin with
  | .whole => r
  | .text index => if text = s.text then r else { r with text := r.text.put index text }
  | .variant index _ category =>
    let before := (r.pluralElements.get? index).getD []
    { r with pluralElements := r.pluralElements.put index (before ++ [⟨category, text⟩]) }
  | .option index _ key =>
    let before := (r.selectElements.get? index).getD []
    { r with selectElements := r.selectElements.put index (before ++ [⟨key, text⟩]) }

/-- The replacements that the translated segments make. -/
def collect (segments : List Segment) (mapping : String → Option String) : Replacements :=
  segments.foldl (fun r s => route r s ((mapping s.id).getD s.text)) .empty

/-- The segments of a unit that are looked up: all those of a message, and of an opaque text, which
is translated as a whole, the first. -/
def consulted (u : BatchUnit) : List Segment :=
  if u.isOpaque then u.segments.take 1 else u.segments

/-- The notices about segments that were looked up and not translated. -/
def missing (u : BatchUnit) (mapping : String → Option String) : List Notice :=
  ((consulted u).filter fun s => (mapping s.id).isNone).map fun s => .untranslated s.id

/-- Branches under the index of their element, as a trace shows them. -/
def branchTrace (entries : Entries Int (List Branch)) : Json :=
  .ofMembers <| entries.map fun (index, branches) =>
    (toString index, .array (branches.map fun b => .array [.string b.key, .string b.text]))

/-- The trace of the replacements in a unit. -/
def replacementTrace (unit : String) (r : Replacements) : String :=
  trace "workflow.translations" <| .ofMembers
    [("unit", .string unit),
      ("text", .ofMembers (r.text.map fun (index, text) => (toString index, .string text))),
      ("plurals", branchTrace r.pluralElements), ("selects", branchTrace r.selectElements)]

/-- The text that a unit becomes. -/
def rebuildUnit (o : Options) (u : BatchUnit) (mapping : String → Option String) : String :=
  match u.message with
  | some m => rebuild m.toPattern (collect u.segments mapping) o
  | none =>
    match u.segments with
    | [] => u.source
    | s :: _ => (mapping s.id).getD u.source

/-- The trace of a unit; an opaque unit has none. -/
def unitTrace (u : BatchUnit) (mapping : String → Option String) : String :=
  if u.isOpaque then "" else replacementTrace u.id (collect u.segments mapping)

/-- The translated segments are put back into their units. A repeated identifier keeps its first
place among the results. -/
def apply (s : Session) (units : List BatchUnit) (mapping : String → Option String) :
    Session × StepResult (Entries String String) :=
  let results := Entries.ofPairs (units.map fun u => (u.id, rebuildUnit s.options u mapping))
  let notices := units.flatMap fun u => missing u mapping
  let out := String.join (notices.map Notice.line) ++
    if s.verbose then
      s!"Reconstructed {results.length} messages for {s.options.language}.\n"
    else ""
  let err := if s.debug then String.join (units.map fun u => unitTrace u mapping) else ""
  ({ s with notices := s.notices ++ notices }, ⟨results, notices, out, err⟩)

/-! ### Summing up -/

/-- What a session has done. -/
structure Summary where
  /-- The language of the session. -/
  language : String
  /-- The units of the last batch. -/
  units : Nat
  /-- Those of them that have plurals or selects. -/
  complexUnits : Nat
  /-- Those of them that are no messages. -/
  opaqueUnits : Nat
  /-- The segments of the last batch. -/
  segments : Nat
  /-- The reports of all notices of the session. -/
  reports : List String

/-- The summary of a session. -/
def summary (s : Session) : Summary where
  language := s.options.language
  units := s.units.length
  complexUnits := s.units.countP fun u => u.message.any Message.isComplex
  opaqueUnits := s.units.countP BatchUnit.isOpaque
  segments := s.segments.length
  reports := s.notices.map Notice.message

end Session

end MessageFormat
