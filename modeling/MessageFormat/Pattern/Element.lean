import MessageFormat.Text.Quoted

/-!
# Elements and patterns

What a message is made of: plain text, arguments, and the three constructs that choose one of
several branches. The branches of a construct are kept as text, as they stand between their
braces. A `Pattern` is a message together with its elements.
-/

namespace MessageFormat

/-- One branch of a construct: the plural category, exact number or option key that selects it,
and its text. -/
structure Branch where
  /-- The plural category, `=` and a number, or the option key. -/
  key : String
  /-- The text between the braces. -/
  text : String
  deriving DecidableEq, Repr, Inhabited

namespace Branch

/-- The branch is chosen by one number and not by a plural category. -/
def isExact (b : Branch) : Bool :=
  b.key.toList.head? == some '='

end Branch

/-- What an element says, wherever in a message it stands. -/
inductive Content where
  /-- Text that stands for itself; its quoting has been resolved. -/
  | text (value : String)
  /-- The value of a variable, perhaps formatted as a type in a style. -/
  | argument (name : String) (type : Option String) (style : Option String)
  /-- A choice by the cardinal plural category of a number, after subtracting the offset. -/
  | plural (name : String) (offset : Option Int) (variants : List Branch)
  /-- A choice by the ordinal plural category of a number. -/
  | ordinal (name : String) (variants : List Branch)
  /-- A choice by the value of a variable. -/
  | select (name : String) (options : List Branch)
  deriving DecidableEq, Repr

namespace Content

/-- The variable that the element depends on; text depends on none. -/
def name? : Content → Option String
  | .text _ => none
  | .argument name _ _ => some name
  | .plural name _ _ => some name
  | .ordinal name _ => some name
  | .select name _ => some name

/-- The branches of a construct; text and arguments have none. -/
def branches : Content → List Branch
  | .text _ => []
  | .argument _ _ _ => []
  | .plural _ _ variants => variants
  | .ordinal _ variants => variants
  | .select _ options => options

/-- The element chooses by a number, cardinal or ordinal. -/
def isPlural : Content → Bool
  | .plural _ _ _ => true
  | .ordinal _ _ => true
  | _ => false

/-- The content is a cardinal plural. -/
def isCardinal : Content → Bool
  | .plural _ _ _ => true
  | _ => false

/-- The content is an ordinal plural. -/
def isOrdinal : Content → Bool
  | .ordinal _ _ => true
  | _ => false

/-- The element chooses by a value. -/
def isSelect : Content → Bool
  | .select _ _ => true
  | _ => false

end Content

/-- A part of a message and the stretch of characters that it was read from. -/
structure Element where
  /-- What the element says. -/
  content : Content
  /-- The number of characters before the element. -/
  start : Nat
  /-- The number of characters up to the end of the element. -/
  stop : Nat
  deriving DecidableEq, Repr

/-- A message and the elements that it is made of. -/
structure Pattern where
  /-- The message itself. -/
  source : String
  /-- Its elements in reading order. -/
  elements : List Element
  deriving DecidableEq, Repr

namespace Pattern

/-- The characters from `start` to `stop`, as many of them as the message has. -/
def slice (p : Pattern) (start stop : Nat) : String :=
  String.ofList ((p.source.toList.take stop).drop start)

end Pattern

/-- A part of a hand-made pattern, which may be of a kind that no message has. -/
inductive DraftElement where
  /-- One of the known elements. -/
  | known (element : Element)
  /-- Something else, under the name that it was given. -/
  | unknown (kind : String)
  deriving DecidableEq, Repr

/-- A pattern that was put together by hand. -/
structure Draft where
  /-- The message that the spans of the elements refer to. -/
  source : String
  /-- The parts in order. -/
  parts : List DraftElement
  deriving DecidableEq, Repr

/-- A draft holds a part of an unknown kind. -/
structure UnknownElement where
  /-- The name of the kind. -/
  kind : String
  deriving DecidableEq, Repr

/-- The text that reports the part. -/
def UnknownElement.message (e : UnknownElement) : String :=
  "Unsupported message element: " ++ Text.quoteWord e.kind

namespace DraftElement

/-- The element, if the part is one. -/
def toElement : DraftElement → Except UnknownElement Element
  | .known element => .ok element
  | .unknown kind => .error ⟨kind⟩

end DraftElement

namespace Draft

/-- The pattern of a draft whose parts are all known; otherwise the first unknown part is
reported. -/
def toPattern (d : Draft) : Except UnknownElement Pattern :=
  (d.parts.mapM DraftElement.toElement).map fun elements => ⟨d.source, elements⟩

end Draft

end MessageFormat
