import MessageFormat.Text.Blank

/-!
# Quick looks at a text

Two tests that look at the characters of a text without reading it as a message: whether the usual
spelling of a construct with branches occurs in it, and whether it is one plain argument.
-/

namespace MessageFormat

/-- The characters of `part` stand next to each other somewhere in a text. -/
def occursIn (part : List Char) : List Char → Bool
  | [] => part.isEmpty
  | c :: rest => part.isPrefixOf (c :: rest) || occursIn part rest

/-- The usual spellings of the words that make a construct with branches, between commas. -/
def branchMarkers : List String :=
  [", plural,", ",plural,", ", select,", ",select,", ", selectordinal,", ",selectordinal,"]

/-- The text has a brace, and one of the words that make a construct with branches between
commas. -/
def hasBranchMarker (text : String) : Bool :=
  text.toList.contains '\x7b' && branchMarkers.any fun marker => occursIn marker.toList text.toList

/-- The text is, blanks around it apart, a single argument that is neither formatted nor padded
and whose name has no hyphen and does not start with a digit. -/
def isSimpleArgument (text : String) : Bool :=
  match Text.strip text.toList with
  | '\x7b' :: first :: rest =>
    (first.isAlpha || first == '_') && rest.getLast? == some '\x7d' &&
      rest.dropLast.all fun c => c.isAlphanum || c == '_'
  | _ => false

end MessageFormat
