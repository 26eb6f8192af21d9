import MessageFormat.Text.Blank

/-!
# Reviewing translated texts

`review` compares a text with what it was translated from. It reports placeholders that were lost
or made up, a text without any character but blanks, and one that has not changed at all.
Placeholders are what stands between braces or between angle brackets, at least one character.
-/

namespace MessageFormat

/-- The text up to and including the first `closing` character, if at least one character comes
before it. -/
def placeholderAfter (opening closing : Char) (rest : List Char) : Option (List Char) :=
  let inner := rest.takeWhile (· != closing)
  if inner.length < rest.length ∧ inner ≠ [] then some (opening :: inner ++ [closing]) else none

/-- The placeholder that starts at the start of a text. -/
def placeholder? : List Char → Option (List Char)
  | [] => none
  | c :: rest =>
    if c = '\x7b' then placeholderAfter c '\x7d' rest
    else if c = '<' then placeholderAfter c '>' rest
    else none

/-- The placeholders of a text from left to right; none of them starts inside another. The first
`covered` characters belong to one that was found already. -/
def placeholdersFrom (covered : Nat) : List Char → List String
  | [] => []
  | c :: rest =>
    match covered with
    | left + 1 => placeholdersFrom left rest
    | 0 =>
      match placeholder? (c :: rest) with
      | none => placeholdersFrom 0 rest
      | some found => String.ofList found :: placeholdersFrom (found.length - 1) rest

/-- The placeholders of a text. -/
def placeholders (text : String) : List String :=
  placeholdersFrom 0 text.toList

/-- What may be wrong with a translated text. -/
inductive Issue where
  /-- A placeholder of the source is missing. -/
  | missing (placeholder : String)
  /-- There is a placeholder that the source does not have. -/
  | unexpected (placeholder : String)
  /-- The text is blank. -/
  | blank
  /-- The text is that of the source. -/
  | unchanged
  deriving DecidableEq, Repr

/-- The report of an issue. -/
def Issue.message : Issue → String
  | .missing placeholder => "Missing placeholder: " ++ placeholder
  | .unexpected placeholder => "Unexpected placeholder: " ++ placeholder
  | .blank => "Translation is empty"
  | .unchanged => "Translation appears to be identical to source"

/-- The members of the first list that the second lacks, each once and in alphabetical order. -/
def lacking (texts others : List String) : List String :=
  ((texts.filter fun s => !others.contains s).eraseDups).mergeSort fun a b => a ≤ b

/-- The text is one placeholder in braces, perhaps with a line break after it. -/
def isBarePlaceholder (text : String) : Bool :=
  let cs := text.toList
  let line := if cs.getLast? = some '\n' then cs.dropLast else cs
  line.head? == some '\x7b' && line.getLast? == some '\x7d' && 2 < line.length &&
    line.tail.dropLast.all (· != '\x7d')

/-- Texts up to this length may well be the same in another language. -/
def shortLength : Nat := 3

/-- What is wrong with a translated text. Placeholders are compared if `keepPlaceholders` is set. -/
def review (source translated : String) (keepPlaceholders : Bool) : List Issue :=
  let before := placeholders source
  let after := placeholders translated
  (if keepPlaceholders then
    (lacking before after).map .missing ++ (lacking after before).map .unexpected
  else []) ++
    (if Text.strip translated.toList = [] then [.blank] else []) ++
    (if source = translated ∧ shortLength < source.length ∧ ¬ isBarePlaceholder source then
      [.unchanged]
    else [])

end MessageFormat
