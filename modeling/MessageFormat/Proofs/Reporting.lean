import MessageFormat.CommandLine.Program
import MessageFormat.Proofs.Arguments
import MessageFormat.Proofs.Sections
import MessageFormat.Proofs.SuppliedTexts
import MessageFormat.Settings.EnvFile

/-!
# Reported faults

When the program answers a command line `reconstruct MESSAGE --translations FILE`: it prints the
rebuilt message, or one report of what is wrong with the message or with the replacements in the
file. A message that is nested too deep to be parsed has no answer. Whatever is found in the file,
there are conditions on its name, on its bytes and on the value that it writes, without which the
program breaks off; together they are `FileAnswers`.
-/

namespace MessageFormat.CommandLine

/-- The outcome is an answer: the message rebuilt with replacements that say what the file supplies,
with traces on the other stream if they are asked for, or the report of a fault in the message or in
the replacements and nothing else. -/
inductive Answered (host : Host) (settings : Settings) (message file : String) :
    Outcome → Prop where
  | rebuilt {m : Message} {s : Supplied} {r : Replacements} {err : String} :
      parse message = .ok m →
      (if file = "" then s = .empty else loadReplacements host file = .ok s) →
      s.Says m.toPattern r →
      Answered host settings message file
        (.finished 0 (rebuild m.toPattern r (rebuildWith settings none none) ++ "\n") err)
  | notAMessage {e : ParseError} :
      parse message = .error e →
      Answered host settings message file
        (.finished 1 ("Could not parse message: " ++ e.message ++ "\n") "")
  | noReplacements {report : String} :
      file ≠ "" → loadReplacements host file = .error (.reported report) →
      Answered host settings message file (.finished 1 (report ++ "\n") "")

/-! ### What a file has to be -/

/-- The program has an answer to a value that is to replace something in a pattern: if the value is
an object, no broken section comes first in it, and what is printed of it is text. This is what the
report of its fault quotes, or else what takes part in the rebuilt message. -/
def ValueAnswers (p : Pattern) (v : Json) : Prop :=
  ¬ Supplied.BreaksOff v ∧
    (∀ fault, Supplied.ofJson v = .error fault →
      ∀ report, fault.message? = some report → report.isText = true) ∧
    ∀ s, Supplied.ofJson v = .ok s → ∀ string ∈ s.used p, string.isText = true

/-- The program has an answer to the bytes of a file: they are a text, reading it comes to no
integer that is too long and to no value that is nested too deep, and if it writes a value, the
program has an answer to that. -/
def ContentAnswers (nesting : Nat) (p : Pattern) (content : ByteArray) : Prop :=
  ∃ text, Text.ofBytes? content = some text ∧
    (∀ fault, Json.read nesting text = .error fault →
      fault.cause ≠ .oversizedInteger ∧ fault.cause ≠ .tooDeep) ∧
    ∀ v, Json.read nesting text = .ok v → ValueAnswers p v

/-- The program has an answer to the name of a file: it does not start with a home directory that is
not known, it holds no null character, and if there is a file with this name, the program has an
answer to its bytes. -/
def FileAnswers (host : Host) (p : Pattern) (file : String) : Prop :=
  ∃ path, (Path.ofString file).expandHome? host.homeOf = some path ∧ path.holdsNull = false ∧
    ∀ content, host.files path = .bytes content → ContentAnswers host.nesting p content

/-! ### Loading -/

/-- Loading ends with replacements that a pattern can be rebuilt with, or with a report. -/
def EndsWell (p : Pattern) : Except ReplacementsFault Supplied → Prop
  | .ok s => ∀ string ∈ s.used p, string.isText = true
  | .error (.reported _) => True
  | .error (.aborted _) => False

variable {host : Host} {settings : Settings} {message file : String} {p : Pattern}

/-- A text that is no JSON is reported unless a limit of the reader was met. -/
theorem endsWell_notJson (name : String) (fault : Json.Fault) :
    EndsWell p (.error (notJson name fault)) ↔
      fault.cause ≠ .oversizedInteger ∧ fault.cause ≠ .tooDeep := by
  rw [notJson]
  split
  case h_1 hcause => simp [EndsWell, hcause]
  case h_2 hcause => simp [EndsWell, hcause]
  case h_3 hinteger hdeep => exact iff_of_true trivial ⟨hinteger, hdeep⟩

/-- Reading the replacements that a value describes ends well if the program has an answer to it. -/
theorem endsWell_ofJson (v : Json) :
    EndsWell p ((Supplied.ofJson v).mapError notReplacements) ↔ ValueAnswers p v := by
  rw [ValueAnswers, ← Supplied.answers_ofJson_iff]
  cases hv : Supplied.ofJson v with
  | ok s => simp [EndsWell, Except.mapError, Supplied.Answers]
  | error fault =>
      rw [Except.mapError, notReplacements]
      cases hreport : fault.message? with
      | none => simp [EndsWell, Supplied.Answers, hreport]
      | some report =>
          have hanswers : Supplied.Answers (.error fault : Except InputFault Supplied) :=
            .inr ⟨fault, report, rfl, hreport⟩
          simp only [hanswers, true_and, Except.error.injEq, reduceCtorEq, false_implies,
            implies_true, and_true, forall_eq', hreport, Option.some.injEq, CodeString.isText]
          cases report.text? <;> simp [EndsWell]

/-- Reading the bytes of a file ends well if the program has an answer to them. -/
theorem endsWell_readReplacements (path : Path) :
    EndsWell p (readReplacements host path) ↔
      ∀ content, host.files path = .bytes content → ContentAnswers host.nesting p content := by
  rw [readReplacements]
  cases hfile : host.files path with
  | missing => exact iff_of_true trivial nofun
  | directory => exact iff_of_true trivial nofun
  | bytes content =>
      simp only [FileState.bytes.injEq, forall_eq', ContentAnswers]
      cases htext : Text.ofBytes? content with
      | none => simp [EndsWell]
      | some text =>
          simp only [Option.some.injEq, exists_eq_left', replacementsOf]
          cases hread : Json.read host.nesting text with
          | error fault => simp [endsWell_notJson]
          | ok v => simp [endsWell_ofJson]

/-- Loading the file with a name ends well if the program has an answer to the name. -/
theorem endsWell_loadReplacements :
    EndsWell p (loadReplacements host file) ↔ FileAnswers host p file := by
  rw [loadReplacements, FileAnswers]
  cases (Path.ofString file).expandHome? host.homeOf with
  | none => simp [EndsWell]
  | some path =>
      cases hnull : path.holdsNull with
      | true => simp [EndsWell, hnull]
      | false => simp [hnull, endsWell_readReplacements]

/-! ### Answers -/

/-- Where nothing is supplied, nothing takes part. -/
theorem used_empty (p : Pattern) : Supplied.empty.used p = [] := by
  have hused : ∀ index content, Supplied.empty.usedFor index content = [] := by
    intro index content
    cases content <;> rfl
  simp [Supplied.used, hused]

/-- A message that was rebuilt is printed if what takes part in it is text. -/
theorem answered_printRebuilt_iff {m : Message} {s : Supplied} {err : String}
    (hmessage : parse message = .ok m)
    (hloaded : if file = "" then s = .empty else loadReplacements host file = .ok s) :
    Answered host settings message file
        (printRebuilt (s.rebuild? m.toPattern (rebuildWith settings none none)) err) ↔
      ∀ string ∈ s.used m.toPattern, string.isText = true := by
  rw [← List.all_eq_true]
  cases hused : (s.used m.toPattern).all CodeString.isText with
  | false =>
      rw [Supplied.rebuild?, hused, if_neg Bool.false_ne_true, printRebuilt]
      refine iff_of_false (fun h => ?_) Bool.false_ne_true
      cases h
  | true =>
      rw [Supplied.rebuild?, if_pos hused]
      have hsaid := Supplied.says_toReplacements (List.all_eq_true.1 hused)
      exact iff_of_true (.rebuilt hmessage hloaded hsaid) rfl

/-- Rebuilding ends with an answer if the text can be parsed, unless it is a message and the program
has no answer to the file. -/
theorem answered_runRebuild_iff (debug : Bool) :
    Answered host settings message file
        (runRebuild host false debug (rebuildWith settings none none) message (some file)) ↔
      host.shallow message = true ∧
        ∀ m, parse message = .ok m → file ≠ "" → FileAnswers host m.toPattern file := by
  rw [runRebuild, withMessage]
  by_cases hshallow : host.shallow message = true
  case neg =>
    rw [if_neg hshallow]
    exact iff_of_false nofun fun h => hshallow h.1
  rw [if_pos hshallow, and_iff_right hshallow]
  cases hmessage : parse message with
  | error e => exact iff_of_true (.notAMessage hmessage) nofun
  | ok m =>
      simp only [Except.ok.injEq, forall_eq', Option.getD_some, ← endsWell_loadReplacements]
      by_cases hfile : file = ""
      · rw [if_pos hfile]
        refine iff_of_true ((answered_printRebuilt_iff hmessage (if_pos hfile ▸ rfl)).2 ?_)
          fun hne => absurd hfile hne
        simp [used_empty]
      · rw [if_neg hfile]
        cases hload : loadReplacements host file with
        | ok s =>
            refine (answered_printRebuilt_iff hmessage ?_).trans ?_
            · rw [if_neg hfile]
              exact hload
            · simp [EndsWell, hfile]
        | error fault =>
            cases fault with
            | reported report =>
                exact iff_of_true (.noReplacements hfile hload) fun _ => trivial
            | aborted reason => exact iff_of_false nofun fun h => h hfile

/-- Reading any value as replacements ends with replacements or with a report unless it breaks off
at a broken section. The program answers if its words are arguments and the message is not nested
too deep, and then unless the message is one and the name of the file, its bytes or the value in
them make the program break off. -/
theorem run_answered_iff
    (hsettings : Settings.load host.readVariables (host.files (Path.ofString envFileName))
      host.environment = .ok settings) :
    (∀ v, Supplied.Answers (Supplied.ofJson v) ↔ ¬ Supplied.BreaksOff v) ∧
      (Answered host settings message file
          (run host ["reconstruct", message, "--translations", file]) ↔
        IsArgument message ∧ IsArgument file ∧ host.shallow message = true ∧
          ∀ m, parse message = .ok m → file ≠ "" → FileAnswers host m.toPattern file) := by
  refine ⟨Supplied.answers_ofJson_iff, ?_⟩
  rw [run]
  by_cases h : IsArgument message ∧ IsArgument file
  · rw [ofArguments_of_arguments h.1 h.2, ← and_assoc, and_iff_right h]
    simp only [hsettings]
    exact answered_runRebuild_iff _
  · obtain ⟨refusal, hrefused⟩ := ofArguments_of_not_arguments h
    rw [hrefused]
    exact iff_of_false nofun fun ⟨hmessage, hfile, _⟩ => h ⟨hmessage, hfile⟩

/-- Replacements in the home directory, one of which is no text and takes no part. -/
theorem run_answered_home :
    let content := "\x7b\"text\": \x7b\"0\": \"Hey \", \"5\": \"\\ud800\"\x7d\x7d".toUTF8
    let host : Host :=
      { files := fun path =>
          if path = Path.ofString "/home/u/t.json" then .bytes content else .missing
        environment := []
        readVariables := EnvFile.read []
        homeOf := fun step => if step = "~" then some "/home/u" else none
        nesting := 990
        shallow := fun _ => true }
    let settings : Settings :=
      { language := "en", completePlurals := true, keepExactMatches := true, debug := false }
    Settings.load host.readVariables (host.files (Path.ofString envFileName)) host.environment =
        .ok settings ∧
      Answered host settings "Hi \x7bn\x7d" "~/t.json"
        (run host ["reconstruct", "Hi \x7bn\x7d", "--translations", "~/t.json"]) := by
  intro content host settings
  have hsettings : Settings.load host.readVariables (host.files (Path.ofString envFileName))
      host.environment = .ok settings := by
    decide +kernel
  let m : Message := ⟨⟨"Hi \x7bn\x7d", [⟨.text "Hi ", 0, 3⟩, ⟨.argument "n" none none, 3, 6⟩]⟩,
    ["n"], false, false⟩
  have hmessage : parse "Hi \x7bn\x7d" = .ok m := by decide +kernel
  let s : Supplied := { text := [(0, "Hey "), (5, ⟨[.half 0]⟩)] }
  have hloaded : loadReplacements host "~/t.json" = .ok s := by decide +kernel
  have hused : EndsWell m.toPattern (.ok s) := by
    show ∀ string ∈ s.used m.toPattern, string.isText = true
    decide +kernel
  refine ⟨hsettings, (run_answered_iff hsettings).2.2 ⟨rfl, rfl, rfl, fun m' hm' _ => ?_⟩⟩
  obtain rfl : m = m' := Except.ok.inj (hmessage.symm.trans hm')
  rw [← endsWell_loadReplacements, hloaded]
  exact hused

/-- A list in place of a section is not reported, and neither are bytes that are not UTF-8. -/
theorem not_answers_list_section :
    let host : Host :=
      { files := fun path =>
          if path = Path.ofString "t.json" then .bytes ⟨#[255]⟩ else .missing
        environment := []
        readVariables := EnvFile.read []
        homeOf := fun _ => none
        nesting := 990
        shallow := fun _ => true }
    ¬ Supplied.Answers (Supplied.ofJson (.object [("text", .array [.string "Hi"])])) ∧
      run host ["reconstruct", "Hi", "--translations", "t.json"] = .aborted .notUtf8 := by
  intro host
  refine ⟨?_, by decide +kernel⟩
  rintro (⟨r, h⟩ | ⟨fault, report, h, hreport⟩)
  · cases h
  · cases h
    cases hreport

end MessageFormat.CommandLine
