import MessageFormat.Text.Blank
import MessageFormat.Pattern.Quoting

/-!
# Cursors

A cursor is a place in a text from which one reads step by step: single characters, names, quoted
spans, and stretches up to a brace. Every reading starts outside quotation at the place where the
cursor stands. Each operation returns what it read together with the moved cursor.

Stretches are read in loops over the characters that remain. `scanUntil` collects what it passes
over and stops before a brace or a stop character; `scanBody` only looks for the brace that closes a
body. Both pass over a quoted span with `readSpan`.
-/

namespace MessageFormat

/-- The characters of names: ASCII letters, digits, underscore and hyphen. -/
def isNameChar (c : Char) : Bool :=
  c.isAlphanum || c == '_' || c == '-'

/-! ### Loops over characters -/

/-- A part of a text that was read. -/
structure Stretch where
  /-- What was read. -/
  text : List Char
  /-- The number of characters that were passed over for it. -/
  size : Nat
  deriving DecidableEq, Repr

namespace Stretch

/-- Nothing is read. -/
def empty : Stretch :=
  ⟨[], 0⟩

/-- The stretch with `part` in front, for which `n` more characters were passed over. -/
def prepend (part : List Char) (n : Nat) (s : Stretch) : Stretch :=
  ⟨part ++ s.text, s.size + n⟩

end Stretch

/-- The text starts with two apostrophes. -/
def startsPair (cs : List Char) : Bool :=
  cs.head? == some '\'' && cs.tail.head? == some '\''

/-- The text starts with an apostrophe that opens a quoted span. -/
def startsSpan (cs : List Char) : Bool :=
  cs.head? == some '\'' && cs.tail.head?.any isQuotable

/-- The text of a quoted span after its opening apostrophe: two apostrophes stand for one, and a
single one closes the span. A span that is never closed runs to the end. -/
def spanInside : List Char → Stretch
  | [] => .empty
  | '\'' :: '\'' :: rest => (spanInside rest).prepend ['\''] 2
  | '\'' :: _ => ⟨[], 1⟩
  | c :: rest => (spanInside rest).prepend [c] 1

/-- The quoted span whose opening apostrophe is the first character, whatever that character is.
The raw reading has both apostrophes. -/
def readSpan (raw : Bool) (cs : List Char) : Stretch :=
  let inside := spanInside cs.tail
  ⟨if raw then cs.take (inside.size + 1) else inside.text, inside.size + 1⟩

/-- A quoted span is not empty. -/
theorem size_readSpan_pos (raw : Bool) (cs : List Char) : 0 < (readSpan raw cs).size :=
  Nat.succ_pos _

/-- The text up to a stop character outside all braces, or to the brace that closes more than the
`depth` braces that are open. -/
def scanUntil (stops : Char → Bool) (raw : Bool) (depth : Nat) : List Char → Stretch
  | [] => .empty
  | c :: rest =>
    if startsPair (c :: rest) then
      (scanUntil stops raw depth ((c :: rest).drop 2)).prepend
        (if raw then ['\'', '\''] else ['\'']) 2
    else if startsSpan (c :: rest) then
      let span := readSpan raw (c :: rest)
      have := size_readSpan_pos raw (c :: rest)
      (scanUntil stops raw depth ((c :: rest).drop span.size)).prepend span.text span.size
    else if c = '\x7b' then (scanUntil stops raw (depth + 1) rest).prepend [c] 1
    else if c = '\x7d' then
      if depth = 0 then .empty else (scanUntil stops raw (depth - 1) rest).prepend [c] 1
    else if c ≠ '\'' ∧ depth = 0 ∧ stops c then .empty
    else (scanUntil stops raw depth rest).prepend [c] 1
  termination_by cs => cs.length

/-- The number of characters before the brace that closes the last of the `depth` open braces;
none if the text ends first. -/
def scanBody (depth : Nat) : List Char → Option Nat
  | [] => none
  | c :: rest =>
    if startsPair (c :: rest) then (scanBody depth ((c :: rest).drop 2)).map (· + 2)
    else if startsSpan (c :: rest) then
      let span := readSpan true (c :: rest)
      have := size_readSpan_pos true (c :: rest)
      (scanBody depth ((c :: rest).drop span.size)).map (· + span.size)
    else if c = '\x7b' then (scanBody (depth + 1) rest).map (· + 1)
    else if c = '\x7d' then
      if depth = 1 then some 0 else (scanBody (depth - 1) rest).map (· + 1)
    else (scanBody depth rest).map (· + 1)
  termination_by cs => cs.length

/-! ### Cursors -/

/-- A text and the number of characters before the place that is read next. -/
structure Cursor where
  /-- The text that is read. -/
  source : String
  /-- The number of characters before the cursor. -/
  position : Nat
  deriving DecidableEq, Repr

namespace Cursor

/-- A cursor at the start of a text. -/
def ofString (source : String) : Cursor :=
  ⟨source, 0⟩

/-- The characters from the cursor on. -/
def rest (c : Cursor) : List Char :=
  c.source.toList.drop c.position

/-- The characters of the text from `start` to `stop`, as many of them as it has. -/
def slice (c : Cursor) (start stop : Nat) : String :=
  String.ofList ((c.source.toList.take stop).drop start)

/-- The cursor moved forward by `n` characters. -/
def advance (c : Cursor) (n : Nat) : Cursor :=
  { c with position := c.position + n }

/-- The cursor stands at the end of the text or beyond. -/
def isEnd (c : Cursor) : Bool :=
  c.rest.isEmpty

/-- The cursor at a chosen position, or at the nearest one inside the text. -/
def moveTo (c : Cursor) (position : Int) : Cursor :=
  { c with position := min position.toNat c.source.length }

/-- The character `offset` places after the cursor, or before it if `offset` is negative. -/
def peek (c : Cursor) (offset : Int) : Option Char :=
  let index := c.position + offset
  if index < 0 then none else c.source.toList[index.toNat]?

/-- The next character; at the end there is none and the cursor stays. -/
def next (c : Cursor) : Option Char × Cursor :=
  match c.rest with
  | [] => (none, c)
  | char :: _ => (some char, c.advance 1)

/-- The cursor stands on an apostrophe that opens a quoted span. -/
def startsQuote (c : Cursor) : Bool :=
  startsSpan c.rest

/-- The quoted span whose opening apostrophe is the character at the cursor, whatever that
character is. A span that is never closed runs to the end of the text. The raw reading has both
apostrophes. -/
def readQuoted (c : Cursor) (raw : Bool) : String × Cursor :=
  let span := readSpan raw c.rest
  (String.ofList span.text, c.advance span.size)

/-- The longest run of name characters. -/
def readName (c : Cursor) : String × Cursor :=
  let name := c.rest.takeWhile isNameChar
  (String.ofList name, c.advance name.length)

/-- The cursor moved over the blanks in front of it. -/
def skipBlanks (c : Cursor) : Cursor :=
  c.advance (c.rest.takeWhile Text.isBlank).length

/-- The text up to a stop character outside nested braces, or to the brace that closes what the
cursor stands in. Quoted spans are read as they are written or as the text that they stand for. -/
def readUntil (c : Cursor) (stops : Char → Bool) (raw : Bool) : String × Cursor :=
  let read := scanUntil stops raw 0 c.rest
  (String.ofList read.text, c.advance read.size)

/-- The body whose opening brace lies before the cursor; the cursor moves past the closing brace.
Without one the cursor moves to the end. -/
def readBalanced (c : Cursor) : Option String × Cursor :=
  match scanBody 1 c.rest with
  | some size => (some (c.slice c.position (c.position + size)), c.advance (size + 1))
  | none => (none, c.advance c.rest.length)

end Cursor

end MessageFormat
