import MessageFormat.Data.Entries
import MessageFormat.Pattern.Element

/-!
# Replacements and options

What may replace the parts of a message when it is rebuilt, and how. Text is addressed by the index
of its element. The branches of a construct are addressed by the index of the element or by the
name of its variable; the index wins, because a message may use one variable in several constructs.
-/

namespace MessageFormat

/-- Replacements for the parts of a message. -/
structure Replacements where
  /-- Text by the index of its element. -/
  text : Entries Int String := []
  /-- Plural variants by variable. -/
  plurals : Entries String (List Branch) := []
  /-- Select options by variable. -/
  selects : Entries String (List Branch) := []
  /-- Plural variants by the index of the element. -/
  pluralElements : Entries Int (List Branch) := []
  /-- Select options by the index of the element. -/
  selectElements : Entries Int (List Branch) := []
  deriving DecidableEq, Repr

namespace Replacements

/-- No replacements. -/
def empty : Replacements :=
  {}

/-- The branches under the index of an element, or else under the name of its variable. There are
none, or an empty list, when the construct is not translated. -/
def branchesFor (byIndex : Entries Int (List Branch)) (byName : Entries String (List Branch))
    (index : Nat) (name : String) : List Branch :=
  match (byIndex.get? index).getD [] with
  | [] => (byName.get? name).getD []
  | branches => branches

/-- The translated variants of a plural; none if it is not translated. -/
def variantsFor (t : Replacements) (index : Nat) (name : String) : List Branch :=
  branchesFor t.pluralElements t.plurals index name

/-- The translated options of a select; none if it is not translated. -/
def optionsFor (t : Replacements) (index : Nat) (name : String) : List Branch :=
  branchesFor t.selectElements t.selects index name

end Replacements

/-- How a message is rebuilt. -/
structure Options where
  /-- The language whose plural categories are required. -/
  language : String := "en"
  /-- Plurals get the variants that the language requires. -/
  completePlurals : Bool := false
  /-- Exact matches of the source are kept when the translated variants lack them. -/
  keepExactMatches : Bool := true
  deriving DecidableEq, Repr

end MessageFormat
