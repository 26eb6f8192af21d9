import MessageFormat.Plural.Rules
import MessageFormat.Text.Blank
import MessageFormat.Text.Lowercase

/-!
# Languages and their categories

Rules are looked up by the primary subtag of a language tag, in lowercase: `en` for `en-US`. A tag
whose primary subtag is not in the table gets the default rules.
-/

namespace MessageFormat.Plural

/-- The primary subtag of a language tag: what comes before the first hyphen or underscore, in
lowercase and without blanks around the tag. -/
def primarySubtag (tag : String) : String :=
  String.ofList <| (Text.lowercase (Text.strip tag.toList)).takeWhile fun c => c != '-' && c != '_'

/-- The rules that the table has for a language tag. -/
def Rules.find? (tag : String) : Option Rules :=
  table.lookup (primarySubtag tag)

/-- The rules for a language tag. -/
def Rules.ofLanguage (tag : String) : Rules :=
  (Rules.find? tag).getD defaultRules

/-- The forms of a language for one kind of numbers. -/
def formsOf (tag : String) (kind : Kind) : Forms :=
  (Rules.ofLanguage tag).forms kind

/-- The categories that a message in the language must provide. -/
def required (tag : String) (kind : Kind) : List Category :=
  (formsOf tag kind).categories

/-- The category of a name and its examples in a language. A name of no category has none. -/
def examplesOf (name tag : String) (kind : Kind) : List Example :=
  match Category.ofName? name with
  | none => []
  | some c => (formsOf tag kind).examples c

/-- At most this many examples are shown in a description. -/
def maxExamples : Nat := 5

/-- What a category is used for in a language, with some of its examples. -/
def describe (c : Category) (tag : String) (kind : Kind) : String :=
  let shown := ((formsOf tag kind).examples c).take maxExamples
  let numbers := ", ".intercalate (shown.map Example.toString)
  let hint := if shown = [] then "" else s!" (e.g., {numbers})"
  s!"{c.name}: {c.description}{hint}"

/-- A name that is no plural category. -/
structure UnknownCategory where
  /-- The name. -/
  name : String
  deriving DecidableEq, Repr

/-- The text that reports the name. -/
def UnknownCategory.message (e : UnknownCategory) : String :=
  s!"Unknown plural category '{e.name}'."

/-- The category that a name refers to; any other name is reported. -/
def Category.ofName (name : String) : Except UnknownCategory Category :=
  match Category.ofName? name with
  | none => .error ⟨name⟩
  | some c => .ok c

end MessageFormat.Plural
