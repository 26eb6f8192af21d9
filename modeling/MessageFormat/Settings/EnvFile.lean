import MessageFormat.Data.Entries
import MessageFormat.Text.Blank

/-!
# Files of variables

A file of variables has one statement on each line: `NAME=value`, perhaps after the word `export`.
A value may be quoted, and then it may run over several lines and has escapes. Other values end at
a comment, which is a number sign after a blank. `EnvFile.read` reads such a text. Lines that
are no statement are passed over, a name without a value stands for no value, and the last
statement about a name wins.

References such as `${NAME}` or `${NAME:-text}` stand for what earlier statements or the
environment say of a name, or else for the text after `:-`.
-/

namespace MessageFormat.EnvFile

open Text (isBlank trimEnd)

/-- A blank that does not end a line. -/
def isInlineBlank (c : Char) : Bool :=
  isBlank c && c != '\n' && c != '\r'

/-- The text after blanks on the same line. -/
def skipInline (cs : List Char) : List Char :=
  cs.dropWhile isInlineBlank

/-- The text after the end of the current line. -/
def nextLine (cs : List Char) : List Char :=
  (cs.dropWhile (· != '\n')).tail

/-- The text after the word `export` and the blanks that must follow it, if they come first. -/
def skipExport (cs : List Char) : List Char :=
  let word := "export".toList
  if word.isPrefixOf cs && (cs.drop word.length).head?.any isInlineBlank then
    skipInline (cs.drop word.length)
  else cs

/-- A character of a name that is not quoted. -/
def isBareNameChar (c : Char) : Bool :=
  !(isBlank c) && c != '=' && c != '#'

/-- The name at the start of a text, and the rest. A comment has no name. Where no name can be
read, the reading stops. -/
def readName (cs : List Char) : Option (Option String × List Char) :=
  match cs with
  | '#' :: _ => some (none, cs)
  | '\'' :: rest =>
    let name := rest.takeWhile (· != '\'')
    if name ≠ [] ∧ name.length < rest.length then
      some (some (String.ofList name), rest.drop (name.length + 1))
    else none
  | _ =>
    let name := cs.takeWhile isBareNameChar
    if name = [] then none else some (some (String.ofList name), cs.drop name.length)

/-- The length of a quoted value after its opening mark: up to the next mark that does not belong
to the backslash before it. A backslash and the character after it belong together. -/
def quotedLength? (mark : Char) : List Char → Option Nat
  | [] => none
  | '\\' :: _ :: rest => (quotedLength? mark rest).map (· + 2)
  | c :: rest => if c = mark then some 0 else (quotedLength? mark rest).map (· + 1)

/-- The characters that a backslash may stand before, with what they then stand for. -/
def escapes (mark : Char) : List (Char × Char) :=
  if mark = '\'' then [('\\', '\\'), ('\'', '\'')]
  else
    [('\\', '\\'), ('\'', '\''), ('"', '"'), ('a', Char.ofNat 0x07), ('b', Char.ofNat 0x08),
      ('f', Char.ofNat 0x0C), ('n', '\n'), ('r', '\r'), ('t', '\t'), ('v', Char.ofNat 0x0B)]

/-- The text that a quoted value stands for. -/
def unescape (mark : Char) : List Char → List Char
  | [] => []
  | [c] => [c]
  | c :: d :: rest =>
    if c = '\\' then
      match (escapes mark).lookup d with
      | some e => e :: unescape mark rest
      | none => c :: unescape mark (d :: rest)
    else c :: unescape mark (d :: rest)

/-- The part of a line before a comment. The character before the line is a blank or not. -/
def beforeComment (afterBlank : Bool) : List Char → List Char
  | [] => []
  | c :: rest => if c = '#' ∧ afterBlank then [] else c :: beforeComment (isBlank c) rest

/-- The value after an equals sign, and the rest. Where a quoted value has no end, the reading
stops. -/
def readValue (cs : List Char) : Option (String × List Char) :=
  let start := skipInline cs
  match start with
  | [] => some ("", [])
  | mark :: inner =>
    if mark = '\'' ∨ mark = '"' then
      (quotedLength? mark inner).map fun length =>
        (String.ofList (unescape mark (inner.take length)), inner.drop (length + 1))
    else
      let line := start.takeWhile (· != '\n')
      let value := beforeComment (start.length < cs.length) line
      some (String.ofList (trimEnd isBlank value), start.drop line.length)

/-- The text after a comment, if one comes next on the line. -/
def skipComment (cs : List Char) : List Char :=
  match skipInline cs with
  | '#' :: rest => rest.dropWhile (· != '\n')
  | _ => cs

/-- The text after the end of the line, if only blanks come before it. -/
def lineEnd? (cs : List Char) : Option (List Char) :=
  match skipInline cs with
  | [] => some []
  | '\n' :: rest => some rest
  | _ => none

/-- A name and its value, if it has one. -/
abbrev Statement :=
  String × Option String

/-- The statement at the start of a text that does not start with a blank, and the text after its
line. -/
def readStatement (cs : List Char) : Option Statement × List Char :=
  let start := skipExport cs
  match readName start with
  | none => (none, nextLine start)
  | some (name, afterName) =>
    let here := skipInline afterName
    let assigned := match here with
      | '=' :: rest => (readValue rest).elim (none, skipInline rest) fun (value, after) =>
          (some (some value), after)
      | _ => (some none, here)
    match assigned with
    | (none, stop) => (none, nextLine stop)
    | (some value, after) =>
      let stop := skipComment after
      match lineEnd? stop with
      | none => (none, nextLine stop)
      | some rest => (name.map fun name => (name, value), rest)

/-- The statements of a text in order. -/
def statements (cs : List Char) : List Statement :=
  match cs.dropWhile isBlank with
  | [] => []
  | c :: rest =>
    let (statement, after) := readStatement (c :: rest)
    if after.length < cs.length then statement.toList ++ statements after else statement.toList
  termination_by cs.length

/-- The part of a reference after `${`: the name, the text to use in its place, and the number of
characters up to the closing brace. -/
def reference? (cs : List Char) : Option (String × String × Nat) :=
  let name := cs.takeWhile fun c => c != '\x7d' && c != ':'
  match cs.drop name.length with
  | '\x7d' :: _ => some (String.ofList name, "", name.length + 1)
  | ':' :: '-' :: rest =>
    let text := rest.takeWhile (· != '\x7d')
    if text.length < rest.length then
      some (String.ofList name, String.ofList text, name.length + text.length + 3)
    else none
  | _ => none

/-- A value with its references replaced by what `valueOf` says of the names. -/
def expand (valueOf : String → Option String) (cs : List Char) : List Char :=
  match cs with
  | [] => []
  | '$' :: '\x7b' :: inner =>
    match reference? inner with
    | some (name, text, size) =>
      ((valueOf name).getD text).toList ++ expand valueOf (inner.drop size)
    | none => '$' :: expand valueOf ('\x7b' :: inner)
  | c :: rest => c :: expand valueOf rest
  termination_by cs.length
  decreasing_by all_goals simp <;> omega

/-- What a reference to a name stands for: an earlier statement counts more than the environment,
and a name without a value stands for no text. -/
def valueOf (environment : Entries String String) (earlier : Entries String (Option String))
    (name : String) : Option String :=
  match earlier.get? name with
  | some value => some (value.getD "")
  | none => environment.get? name

/-- The variables that the statements set. -/
def resolve (environment : Entries String String) (statements : List Statement) :
    Entries String (Option String) :=
  statements.foldl (fun earlier (name, value) =>
    earlier.put name <| value.map fun text =>
      String.ofList (expand (valueOf environment earlier) text.toList)) []

/-- The variables that a text sets. A mark of the byte order in front of it does not count. -/
def read (environment : Entries String String) (text : String) :
    Entries String (Option String) :=
  let cs := text.toList
  resolve environment (statements (if cs.head? = some '\uFEFF' then cs.tail else cs))

/-- The names that may be referred to in a text. -/
def referredNames (cs : List Char) : List String :=
  match cs with
  | [] => []
  | '$' :: '\x7b' :: inner => ((reference? inner).map (·.1)).toList ++ referredNames inner
  | _ :: rest => referredNames rest

end MessageFormat.EnvFile
