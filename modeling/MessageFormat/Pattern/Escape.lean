import MessageFormat.Pattern.Quoting

/-!
# Escaping

`escape` writes any text in such a way that a message which contains it says exactly that text.
Runs of braces are put between apostrophes. An apostrophe is doubled where it would otherwise
quote: before another one, before a quotable character, and at the end, where anything may follow.
-/

namespace MessageFormat

/-- The character opens or closes a placeholder. -/
def isBrace (c : Char) : Bool :=
  c == '\x7b' || c == '\x7d'

/-- A character outside braces as it is written before `next`. -/
def escapeChar (c : Char) (next : Option Char) : List Char :=
  if c = '\'' then
    if next.all fun d => d == '\'' || isQuotable d then ['\'', '\''] else [c]
  else [c]

/-- The apostrophe that starts or ends a run of braces. -/
def runEdge (edge : Bool) : List Char :=
  if edge then ['\''] else []

/-- The written form of a text that follows a brace of an unfinished run, or does not. -/
def escapeAfter (run : Bool) : List Char → List Char
  | [] => runEdge run
  | c :: rest =>
    if isBrace c then runEdge (!run) ++ c :: escapeAfter true rest
    else runEdge run ++ escapeChar c rest.head? ++ escapeAfter false rest

/-- The written form of a text. -/
def escape (text : String) : String :=
  String.ofList (escapeAfter false text.toList)

end MessageFormat
