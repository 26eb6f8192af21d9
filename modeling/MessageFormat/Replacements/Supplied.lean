import MessageFormat.Replacements
import MessageFormat.Text.CodeString

/-!
# Supplied replacements

Replacements as somebody wrote them down: text by index, branches by variable. Their strings need
not be texts. What is a text among them makes the `Replacements` that a message can be rebuilt with.
-/

namespace MessageFormat

/-- A supplied branch. -/
structure SuppliedBranch where
  /-- The plural category, exact number or option key. -/
  key : CodeString
  /-- What stands between the braces. -/
  text : CodeString
  deriving DecidableEq, Repr

/-- Supplied replacements. -/
structure Supplied where
  /-- Text by the index of its element. -/
  text : Entries Int CodeString := []
  /-- Plural variants by variable. -/
  plurals : Entries CodeString (List SuppliedBranch) := []
  /-- Select options by variable. -/
  selects : Entries CodeString (List SuppliedBranch) := []
  deriving DecidableEq, Repr

/-- The branch, if its key and what stands between its braces are texts. -/
def SuppliedBranch.branch? (b : SuppliedBranch) : Option Branch :=
  b.key.text?.bind fun key => b.text.text?.map fun text => ⟨key, text⟩

namespace Supplied

/-- Nothing is supplied. -/
def empty : Supplied :=
  {}

/-- The text under an index, if it is one. -/
def textUnder? (entry : Int × CodeString) : Option (Int × String) :=
  entry.2.text?.map fun text => (entry.1, text)

/-- The branches under a variable, as far as they are texts, if its name is one. -/
def branchesUnder? (entry : CodeString × List SuppliedBranch) : Option (String × List Branch) :=
  entry.1.text?.map fun name => (name, entry.2.filterMap SuppliedBranch.branch?)

/-- The replacements, as far as they are texts. -/
def toReplacements (s : Supplied) : Replacements where
  text := s.text.filterMap textUnder?
  plurals := s.plurals.filterMap branchesUnder?
  selects := s.selects.filterMap branchesUnder?

end Supplied

end MessageFormat
