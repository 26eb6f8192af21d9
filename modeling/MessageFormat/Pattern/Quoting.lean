/-!
# Apostrophe quoting

An apostrophe in a message is one of three things. Doubled, it stands for one literal apostrophe.
Before one of `{`, `}`, `#` and `|` it opens a quoted span, which the next apostrophe that is not
doubled closes. Anywhere else it is an ordinary character. `glyphs` reads a text from left to
right and says of every character which part it plays, so that whatever looks for braces sees the
unquoted ones only.

One glyph is made of each character and keeps it (`map_char_glyphs`), so a piece of a text and the
glyphs read from it have the same length and the same spelling.
-/

namespace MessageFormat

/-- The part that one character of a message plays. -/
inductive Glyph where
  /-- An unquoted character: it may belong to the syntax and otherwise stands for itself. -/
  | bare (c : Char)
  /-- A quoted character, or the second of two apostrophes: it stands for itself only. -/
  | literal (c : Char)
  /-- An apostrophe that quotes another character and stands for nothing. -/
  | mark
  deriving DecidableEq, Repr

namespace Glyph

/-- The character as it is written. -/
def char : Glyph → Char
  | .bare c => c
  | .literal c => c
  | .mark => '\''

/-- The text that the character stands for. -/
def value : Glyph → List Char
  | .bare c => [c]
  | .literal c => [c]
  | .mark => []

/-- The glyph is an unquoted character that satisfies `p`. -/
def isBare (p : Char → Bool) : Glyph → Bool
  | .bare c => p c
  | _ => false

/-- The spelling of a run of glyphs. -/
def spell (gs : List Glyph) : List Char :=
  gs.map char

/-- The text that a run of glyphs stands for. -/
def decode (gs : List Glyph) : List Char :=
  gs.flatMap value

end Glyph

/-- The characters before which an apostrophe opens a quoted span. -/
def isQuotable (c : Char) : Bool :=
  c == '{' || c == '}' || c == '#' || c == '|'

/-- What the characters read so far mean for the next one. -/
structure Quoting where
  /-- A quoted span is open. -/
  inside : Bool
  /-- The character just read was the first of two apostrophes. -/
  doubled : Bool
  deriving DecidableEq, Repr

namespace Quoting

/-- No span is open and no apostrophe waits for its second. -/
def outside : Quoting :=
  ⟨false, false⟩

/-- A quoted span has just been opened. -/
def opened : Quoting :=
  ⟨true, false⟩

/-- The glyph of one character and the quoting after it, given the character that follows. -/
def step (q : Quoting) (c : Char) (next : Option Char) : Glyph × Quoting :=
  if q.doubled then (.literal c, ⟨q.inside, false⟩)
  else if c = '\'' then
    if next = some '\'' then (.mark, ⟨q.inside, true⟩)
    else if q.inside then (.mark, outside)
    else if next.any isQuotable then (.mark, opened)
    else (.bare c, q)
  else if q.inside then (.literal c, q)
  else (.bare c, q)

/-- A glyph keeps the character that it was read from. -/
theorem char_step (q : Quoting) (c : Char) (next : Option Char) : (q.step c next).1.char = c := by
  unfold step
  split
  · rfl
  · split
    · next h =>
      subst h
      split
      · rfl
      · split
        · rfl
        · split <;> rfl
    · split <;> rfl

end Quoting

/-- The glyphs of a text that is read under the quoting `q`. -/
def glyphs (q : Quoting) : List Char → List Glyph
  | [] => []
  | c :: rest => (q.step c rest.head?).1 :: glyphs (q.step c rest.head?).2 rest

/-- The quoting after a whole text. -/
def quotingAfter (q : Quoting) : List Char → Quoting
  | [] => q
  | c :: rest => quotingAfter (q.step c rest.head?).2 rest

/-- Every character becomes one glyph. -/
@[simp] theorem length_glyphs (q : Quoting) (cs : List Char) :
    (glyphs q cs).length = cs.length := by
  induction cs generalizing q with
  | nil => rfl
  | cons c rest ih => simp [glyphs, ih]

/-- Reading a text into glyphs loses nothing of its spelling. -/
@[simp] theorem spell_glyphs (q : Quoting) (cs : List Char) :
    Glyph.spell (glyphs q cs) = cs := by
  induction cs generalizing q with
  | nil => rfl
  | cons c rest ih =>
    have h := ih (q.step c rest.head?).2
    rw [Glyph.spell] at h ⊢
    simp [glyphs, Quoting.char_step, h]

end MessageFormat
