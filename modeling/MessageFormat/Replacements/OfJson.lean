import MessageFormat.Json.Value
import MessageFormat.Replacements.Supplied
import MessageFormat.Text.Integer

/-!
# Replacements from JSON

Replacements are supplied as an object with the sections `text`, `plurals` and `selects`, each of
which may be missing or blank. Text is keyed by element index; branches are keyed by variable and
listed either as an object or as a list of objects. `Supplied.ofJson` reads such a value and says
what is wrong with any other one.
-/

namespace MessageFormat

/-- What is wrong with supplied replacements. -/
inductive InputFault where
  /-- They are no object. -/
  | notAnObject
  /-- A section holds something that is neither blank nor an object. -/
  | brokenSection (name : String)
  /-- A key of the text section is no integer. -/
  | badIndex (key : CodeString)
  /-- The text for an element is no string. -/
  | textNotString (index : Int)
  /-- The branches of a variable are neither a list nor an object. -/
  | branchesNotListed (name : CodeString)
  /-- A branch in a list is no object. -/
  | branchNotAnObject (name : CodeString)
  /-- A branch lacks one of two members, or it is no string. -/
  | branchNotStrings (name : CodeString) (keyField textField : String)
  deriving DecidableEq, Repr

namespace InputFault

/-- The report of a fault, which holds whatever code points the keys and names at fault hold. A
broken section is not reported: it ends the program. -/
def message? : InputFault → Option CodeString
  | .notAnObject =>
    some ("Translations must be an object with optional 'text', " ++
      "'plurals' and 'selects' entries.")
  | .brokenSection _ => none
  | .badIndex key => some ("Text translation key '" ++ key ++ "' is not an element index.")
  | .textNotString index => some s!"Text translation for element {index} must be a string."
  | .branchesNotListed name =>
    some ("Entries for variable \x7b" ++ name ++ "\x7d must be a list or an object.")
  | .branchNotAnObject name =>
    some ("Entries for variable \x7b" ++ name ++ "\x7d must be objects.")
  | .branchNotStrings name keyField textField =>
    some ("Entries for variable \x7b" ++ name ++
      s!"\x7d need string '{keyField}' and '{textField}' values.")

end InputFault

/-- The members that hold the key and the text of a branch in a list. -/
structure BranchFields where
  /-- The member with the category or key. -/
  key : String
  /-- The member with the text. -/
  text : String

/-- The members of a plural variant. -/
def variantFields : BranchFields :=
  ⟨"category", "text"⟩

/-- The members of a select option. -/
def optionFields : BranchFields :=
  ⟨"key", "value"⟩

namespace Supplied

/-- The members of a section; none if it is blank. -/
def sectionOf (members : List (CodeString × Json)) (name : String) :
    Except InputFault (List (CodeString × Json)) :=
  match Json.member? members name with
  | .object entries => .ok entries
  | value => if value.isBlank then .ok [] else .error (.brokenSection name)

/-- The index that a key writes. A key that is no text writes none. -/
def index? (key : CodeString) : Option Int :=
  key.text?.bind fun text => Text.readInteger text.toList

/-- The replaced text of one element. -/
def readText (entry : CodeString × Json) : Except InputFault (Int × CodeString) :=
  match index? entry.1 with
  | none => .error (.badIndex entry.1)
  | some index =>
    match entry.2 with
    | .string text => .ok (index, text)
    | _ => .error (.textNotString index)

/-- The key and the text of a branch, as they are supplied. -/
def branchParts (fields : BranchFields) (name : CodeString) :
    Json → Except InputFault (Json × Json)
  | .object members =>
    .ok (Json.member? members fields.key, Json.member? members fields.text)
  | _ => .error (.branchNotAnObject name)

/-- The branch with this key and text, if both are strings. -/
def makeBranch (fields : BranchFields) (name : CodeString) :
    Json × Json → Except InputFault SuppliedBranch
  | (.string key, .string text) => .ok ⟨key, text⟩
  | _ => .error (.branchNotStrings name fields.key fields.text)

/-- The branches of a variable. Every branch of a list is an object before any of them is looked
into. -/
def readBranches (fields : BranchFields) (name : CodeString) :
    Json → Except InputFault (List SuppliedBranch)
  | .object members =>
    members.mapM fun (key, value) => makeBranch fields name (.string key, value)
  | .array items => do
    let parts ← items.mapM (branchParts fields name)
    parts.mapM (makeBranch fields name)
  | _ => .error (.branchesNotListed name)

/-- The branches of all variables of a section. -/
def readSection (fields : BranchFields) (entries : List (CodeString × Json)) :
    Except InputFault (Entries CodeString (List SuppliedBranch)) :=
  entries.mapM fun (name, value) => (readBranches fields name value).map (name, ·)

/-- The replacements that a value describes. -/
def ofJson : Json → Except InputFault Supplied
  | .object members => do
    let text ← (← sectionOf members "text").mapM readText
    let plurals ← readSection variantFields (← sectionOf members "plurals")
    let selects ← readSection optionFields (← sectionOf members "selects")
    return { text := Entries.ofPairs text, plurals, selects }
  | _ => .error .notAnObject

end Supplied

end MessageFormat
