import MessageFormat.Json.Value

/-!
# Writing JSON

Values are written over several lines, two blanks deeper at each level; an empty array or object
stays on one line. Strings keep every character except quotation marks, backslashes and control
characters, and halves of pairs, which can only be written as escapes.
-/

namespace MessageFormat.Json

/-- The least four lowercase hexadecimal digits of a number. -/
def fourHexDigits (n : Nat) : List Char :=
  [n / 4096 % 16, n / 256 % 16, n / 16 % 16, n % 16].map Nat.digitChar

/-- A character as it is written in a string. -/
def escapeChar (c : Char) : List Char :=
  if c = '"' then ['\\', '"']
  else if c = '\\' then ['\\', '\\']
  else if c = '\n' then ['\\', 'n']
  else if c = '\r' then ['\\', 'r']
  else if c = '\t' then ['\\', 't']
  else if c.toNat = 0x08 then ['\\', 'b']
  else if c.toNat = 0x0C then ['\\', 'f']
  else if c.toNat < 0x20 then '\\' :: 'u' :: fourHexDigits c.toNat
  else [c]

/-- A code point as it is written in a string. -/
def escapePoint : CodePoint → List Char
  | .char c => escapeChar c
  | .half place => '\\' :: 'u' :: fourHexDigits (CodePoint.firstHalf + place)

/-- A string between quotation marks. -/
def quote (s : CodeString) : String :=
  "\"" ++ String.ofList (s.points.flatMap escapePoint) ++ "\""

/-- The start of a line at a level. -/
def lineBreak (level : Nat) : String :=
  "\n" ++ String.ofList (List.replicate (2 * level) ' ')

/-- Written values between brackets, one on each line. -/
def enclose (left right : String) (level : Nat) (items : List String) : String :=
  if items.isEmpty then left ++ right
  else
    left ++ lineBreak (level + 1) ++ ("," ++ lineBreak (level + 1)).intercalate items ++
      lineBreak level ++ right

mutual

/-- A value written at a level. -/
def render (level : Nat) : Json → String
  | .null => "null"
  | .bool b => if b then "true" else "false"
  | .integer n => toString n
  | .decimal spelling => spelling
  | .string s => quote s
  | .array items => enclose "[" "]" level (renderItems (level + 1) items)
  | .object members => enclose "\x7b" "\x7d" level (renderMembers (level + 1) members)

/-- The items of an array. -/
def renderItems (level : Nat) : List Json → List String
  | [] => []
  | item :: rest => render level item :: renderItems level rest

/-- The members of an object. -/
def renderMembers (level : Nat) : List (CodeString × Json) → List String
  | [] => []
  | (key, value) :: rest => (quote key ++ ": " ++ render level value) :: renderMembers level rest

end

/-- The written form of a value. -/
def write (j : Json) : String :=
  render 0 j

end MessageFormat.Json
