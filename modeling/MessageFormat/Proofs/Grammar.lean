import MessageFormat.Pattern.Message

/-!
# The grammar of messages

Which texts are messages, said by rules over their characters and without reading them step by
step. Every rule relates a stretch of text to what it says. Whether an apostrophe quotes depends on
the character after it, so the rules for text also take that character, `none` at the end of the
message. `Derives` joins the rules for one level into those for a message and its branches.
-/

namespace MessageFormat.Grammar

/-! ### Text -/

/-- The inside of a quoted span, from the character after its opening apostrophe through the lone
apostrophe that closes it, and the text that it stands for. Only the end of the message closes a
span without an apostrophe. -/
inductive Quoted (next : Option Char) : List Char → List Char → Prop where
  | lone : next ≠ some '\'' → Quoted next ['\''] []
  | pair {s v} : Quoted next s v → Quoted next ('\'' :: '\'' :: s) ('\'' :: v)
  | char {c s v} : c ≠ '\'' → Quoted next s v → Quoted next (c :: s) (c :: v)
  | unclosed : next = none → Quoted next [] []

/-- A piece of text and what it stands for: a character, two apostrophes, an apostrophe that has
nothing to quote, or a quoted span. -/
inductive TextPiece (next : Option Char) : List Char → List Char → Prop where
  | char {c} : c ≠ '{' → c ≠ '}' → c ≠ '\'' → TextPiece next [c] [c]
  | pair : TextPiece next ['\'', '\''] ['\'']
  | apostrophe : next ≠ some '\'' → next.any isQuotable = false → TextPiece next ['\''] ['\'']
  | span {c s v} : isQuotable c = true → Quoted next (c :: s) v → TextPiece next ('\'' :: c :: s) v

/-- A sequence of pieces and what it stands for. -/
inductive TextRun (next : Option Char) : List Char → List Char → Prop where
  | nil : TextRun next [] []
  | cons {s v t w} :
      TextPiece (t.head?.or next) s v → TextRun next t w → TextRun next (s ++ t) (v ++ w)

/-- The text up to the unquoted brace that closes one more than the `depth` braces that are open
before it. -/
inductive Enclosed : Nat → List Char → Prop where
  | nil : Enclosed 0 []
  | opening {depth s} : Enclosed (depth + 1) s → Enclosed depth ('{' :: s)
  | closing {depth s} : Enclosed depth s → Enclosed (depth + 1) ('}' :: s)
  | piece {depth s v t} :
      TextPiece (t.head?.or (some '}')) s v → Enclosed depth t → Enclosed depth (s ++ t)

/-! ### Words -/

/-- A run of blanks, which may be empty. -/
def Blank (s : List Char) : Prop :=
  ∀ c ∈ s, Text.isBlank c = true

/-- A name before `rest`: a run of name characters that is neither empty nor continued by `rest`. -/
structure Name (s rest : List Char) : Prop where
  /-- There is a character. -/
  ne_nil : s ≠ []
  /-- All characters are name characters. -/
  chars : ∀ c ∈ s, isNameChar c = true
  /-- The run ends here. -/
  maximal : ∀ c ∈ rest.head?, isNameChar c = false

/-- Decimal digits with single underscores between them, and the values of the digits. -/
inductive Digits : List Char → List Nat → Prop where
  | last {c} : c.isDigit = true → Digits [c] [c.toNat - '0'.toNat]
  | digit {c s ds} :
      c.isDigit = true → Digits s ds → Digits (c :: s) ((c.toNat - '0'.toNat) :: ds)
  | underscore {c s ds} :
      c.isDigit = true → Digits s ds → Digits (c :: '_' :: s) ((c.toNat - '0'.toNat) :: ds)

/-- An integer of at most 4300 digits and its value. -/
inductive Integer : List Char → Int → Prop where
  | natural {s ds} :
      Digits s ds → ds.length ≤ Text.maxDigits → Integer s (Text.ofDigits ds)
  | negative {s ds} :
      Digits s ds → ds.length ≤ Text.maxDigits → Integer ('-' :: s) (-Text.ofDigits ds)

/-! ### Placeholders -/

/-- What selects a branch: a name or, by number, also an equals sign and a name. -/
inductive Key : Selector → List Char → List Char → Prop where
  | name {selector s rest} : Name s rest → Key selector s rest
  | exact {s rest} : Name s rest → Key .category ('=' :: s) rest

/-- Branches, and blanks at the end. -/
inductive BranchList (selector : Selector) : List Char → List Branch → Prop where
  | nil {w} : Blank w → BranchList selector w []
  | cons {w₁ key w₂ body s branches} :
      Blank w₁ → Key selector key (w₂ ++ ['{']) → Blank w₂ → Enclosed 0 body →
      BranchList selector s branches →
      BranchList selector (w₁ ++ key ++ w₂ ++ '{' :: body ++ '}' :: s)
        (⟨String.ofList key, String.ofList body⟩ :: branches)

/-- What follows the word of a plural: perhaps a comma, after it perhaps an offset, and the
variants. -/
inductive Variants : List Char → Option Int → List Branch → Prop where
  | plain {s variants} : BranchList .category s variants → Variants s none variants
  | comma {s variants} : BranchList .category s variants → Variants (',' :: s) none variants
  | offset {w₁ w₂ w₃ number offset s variants} :
      Blank w₁ → Blank w₂ → Blank w₃ → Name number s → Integer number offset →
      BranchList .category s variants →
      Variants (',' :: (w₁ ++ "offset".toList ++ w₂ ++ ':' :: (w₃ ++ number ++ s))) (some offset)
        variants

/-- What follows the word of a select: perhaps a comma, and the options. -/
inductive Choices : List Char → List Branch → Prop where
  | plain {s options} : BranchList .key s options → Choices s options
  | comma {s options} : BranchList .key s options → Choices (',' :: s) options

/-- The words that make a construct with branches. -/
def constructWords : List (List Char) :=
  ["plural".toList, "selectordinal".toList, "select".toList]

/-- The style written by a format: what is left without the blanks around it, if anything. -/
def style? (format : List Char) : Option String :=
  if Text.strip format = [] then none else some (String.ofList (Text.strip format))

/-- What follows the comma after the name of a placeholder. -/
inductive Kind (name : String) : List Char → Content → Prop where
  | typed {w₁ type w₂} :
      Blank w₁ → Name type w₂ → type ∉ constructWords → Blank w₂ →
      Kind name (w₁ ++ type ++ w₂) (.argument name (some (String.ofList type)) none)
  | styled {w₁ type w₂ format} :
      Blank w₁ → Name type (w₂ ++ [',']) → type ∉ constructWords → Blank w₂ → Enclosed 0 format →
      Kind name (w₁ ++ type ++ w₂ ++ ',' :: format)
        (.argument name (some (String.ofList type)) (style? format))
  | plural {w₁ w₂ s offset variants} :
      Blank w₁ → Name "plural".toList (w₂ ++ s) → Blank w₂ → Variants s offset variants →
      Kind name (w₁ ++ "plural".toList ++ w₂ ++ s) (.plural name offset variants)
  | ordinal {w₁ w₂ s offset variants} :
      Blank w₁ → Name "selectordinal".toList (w₂ ++ s) → Blank w₂ → Variants s offset variants →
      Kind name (w₁ ++ "selectordinal".toList ++ w₂ ++ s) (.ordinal name variants)
  | select {w₁ w₂ s options} :
      Blank w₁ → Name "select".toList (w₂ ++ s) → Blank w₂ → Choices s options →
      Kind name (w₁ ++ "select".toList ++ w₂ ++ s) (.select name options)

/-- A placeholder with its braces: a name, which may be followed by a comma and a kind. -/
inductive Placeholder : List Char → Content → Prop where
  | simple {w₁ name w₂} :
      Blank w₁ → Name name w₂ → Blank w₂ →
      Placeholder ('{' :: (w₁ ++ name ++ w₂ ++ ['}'])) (.argument (String.ofList name) none none)
  | kind {w₁ name w₂ s content} :
      Blank w₁ → Name name (w₂ ++ [',']) → Blank w₂ → Kind (String.ofList name) s content →
      Placeholder ('{' :: (w₁ ++ name ++ w₂ ++ ',' :: (s ++ ['}']))) content

/-! ### Messages -/

/-- The elements of one level of a text that has `pos` characters before it. The pieces between two
placeholders make one element. -/
inductive Elements : Nat → List Char → List Element → Prop where
  | nil {pos} : Elements pos [] []
  | text {pos s v t elements} :
      s ≠ [] → TextRun t.head? s v → (∀ c ∈ t.head?, c = '{') →
      Elements (pos + s.length) t elements →
      Elements pos (s ++ t) (⟨.text (String.ofList v), pos, pos + s.length⟩ :: elements)
  | placeholder {pos s content t elements} :
      Placeholder s content → Elements (pos + s.length) t elements →
      Elements pos (s ++ t) (⟨content, pos, pos + s.length⟩ :: elements)

/-- The text is a message with these elements, because all bodies of branches are messages too.
The contents are those of all depths in reading order; `top` and `inside` are what the derivations
of the bodies give. -/
inductive Derives : List Char → List Element → List Content → Prop where
  | intro {text elements} (top : String → List Element) (inside : String → List Content) :
      Elements 0 text elements →
      (∀ e ∈ elements, ∀ b ∈ e.content.branches,
        Derives b.text.toList (top b.text) (inside b.text)) →
      Derives text elements
        (elements.flatMap fun e => e.content :: e.content.branches.flatMap fun b => inside b.text)

end MessageFormat.Grammar
