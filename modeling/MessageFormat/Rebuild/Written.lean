import MessageFormat.Pattern.Element

/-!
# Written elements

The one form in which arguments and constructs are written: no blanks but one after each comma and
before each branch.
-/

namespace MessageFormat

/-- The text between a pair of braces. -/
def braced (text : String) : String :=
  "\x7b" ++ text ++ "\x7d"

/-- A part that is present and not empty. -/
def given? (part : Option String) : Option String :=
  part.filter (· ≠ "")

/-- A written argument. A style counts only together with a type. -/
def writeArgument (name : String) (type style : Option String) : String :=
  match given? type, given? style with
  | none, _ => braced name
  | some type, none => braced (name ++ ", " ++ type)
  | some type, some style => braced (name ++ ", " ++ type ++ ", " ++ style)

/-- A written branch with the blank before it. -/
def writeBranch (b : Branch) : String :=
  " " ++ b.key ++ " " ++ braced b.text

/-- A written construct. -/
def writeConstruct (name keyword head : String) (branches : List Branch) : String :=
  braced (name ++ ", " ++ keyword ++ "," ++ head ++ String.join (branches.map writeBranch))

/-- The offset of a plural is written only if it is positive. -/
def writeOffset : Option Int → String
  | none => ""
  | some offset => if 0 < offset then " offset:" ++ toString offset else ""

/-- A written plural. -/
def writePlural (name : String) (offset : Option Int) (variants : List Branch) : String :=
  writeConstruct name "plural" (writeOffset offset) variants

/-- A written ordinal plural. -/
def writeOrdinal (name : String) (variants : List Branch) : String :=
  writeConstruct name "selectordinal" "" variants

/-- A written select. -/
def writeSelect (name : String) (options : List Branch) : String :=
  writeConstruct name "select" "" options

end MessageFormat
