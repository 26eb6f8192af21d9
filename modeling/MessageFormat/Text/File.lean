/-!
# Texts from files

How the bytes of a file become a text: they are read as UTF-8, and every kind of line break becomes
a line feed.
-/

namespace MessageFormat

/-- What is found under a file name. -/
inductive FileState where
  /-- Nothing. -/
  | missing
  /-- A directory. -/
  | directory
  /-- A file with these bytes. -/
  | bytes (content : ByteArray)

namespace Text

/-- Line breaks of all kinds become line feeds: a line feed right after a carriage return belongs
to the same line break. -/
def unifyLineBreaks (afterReturn : Bool) : List Char → List Char
  | [] => []
  | c :: rest =>
    if c = '\r' then '\n' :: unifyLineBreaks true rest
    else if c = '\n' ∧ afterReturn then unifyLineBreaks false rest
    else c :: unifyLineBreaks false rest

/-- The text of a file; none if its bytes are not UTF-8. -/
def ofBytes? (content : ByteArray) : Option String :=
  (String.fromUTF8? content).map fun text => String.ofList (unifyLineBreaks false text.toList)

end Text

end MessageFormat
