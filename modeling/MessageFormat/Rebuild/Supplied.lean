import MessageFormat.Rebuild.Rebuild
import MessageFormat.Replacements.Supplied

/-!
# Rebuilding with supplied replacements

A message can be rebuilt with supplied replacements if those that take part in it are texts. Of the
branches supplied for a construct, the first of each key takes part.
-/

namespace MessageFormat

/-- The supplied branches that come first for their keys. -/
def SuppliedBranch.firstPerKey : List SuppliedBranch → List SuppliedBranch
  | [] => []
  | b :: rest => b :: (firstPerKey rest).filter fun other => other.key != b.key

namespace Supplied

/-- What is supplied for a construct over the variable. -/
def branchesFor (entries : Entries CodeString (List SuppliedBranch)) (name : String) :
    List SuppliedBranch :=
  (entries.get? name).getD []

/-- The strings of the branches that come first for their keys. -/
def branchStrings (branches : List SuppliedBranch) : List CodeString :=
  (SuppliedBranch.firstPerKey branches).flatMap fun b => [b.key, b.text]

/-- The strings that take part in an element. -/
def usedFor (s : Supplied) (index : Nat) : Content → List CodeString
  | .text _ => (s.text.get? index).toList
  | .argument _ _ _ => []
  | .plural name _ _ => branchStrings (branchesFor s.plurals name)
  | .ordinal name _ => branchStrings (branchesFor s.plurals name)
  | .select name _ => branchStrings (branchesFor s.selects name)

/-- The strings that take part in a pattern. -/
def used (s : Supplied) (p : Pattern) : List CodeString :=
  p.elements.zipIdx.flatMap fun (e, index) => s.usedFor index e.content

/-- The message that a pattern becomes; none if a string that takes part in it is no text. -/
def rebuild? (s : Supplied) (p : Pattern) (o : Options) : Option String :=
  if (s.used p).all CodeString.isText then some (rebuild p s.toReplacements o) else none

end Supplied

end MessageFormat
