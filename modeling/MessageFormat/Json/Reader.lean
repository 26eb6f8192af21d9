import MessageFormat.Json.Value
import MessageFormat.Text.Integer

/-!
# Reading JSON

`Json.read` reads one value from a text. Besides what the grammar of JSON allows it accepts the
words `NaN`, `Infinity` and `-Infinity` as numbers. A repeated key keeps its first place in the
object and takes its last value. An escaped half of a pair may stand alone in a string. A fault says
what was expected where; `Fault.message` puts it into words. Two faults are limits of the reader and
no faults of the text: an integer of too many digits, and values nested too deep.

Every reader returns the rest of the text together with a proof that it is shorter, so the readers
of values, items and members may call each other.
-/

namespace MessageFormat.Json

/-- Why a text is no JSON value. -/
inductive Cause where
  | byteOrderMark
  | expectingValue
  | extraData
  | expectingName
  | expectingColon
  | expectingComma
  | unterminatedString
  | controlCharacter
  | badEscape
  | badUnicodeEscape
  /-- An integer with more digits than can be read. -/
  | oversizedInteger
  /-- Arrays and objects inside each other, more than can be open at once. -/
  | tooDeep
  deriving DecidableEq, Repr

/-- The wording of a cause. -/
def Cause.message : Cause → String
  | .byteOrderMark => "Unexpected UTF-8 BOM (decode using utf-8-sig)"
  | .expectingValue => "Expecting value"
  | .extraData => "Extra data"
  | .expectingName => "Expecting property name enclosed in double quotes"
  | .expectingColon => "Expecting ':' delimiter"
  | .expectingComma => "Expecting ',' delimiter"
  | .unterminatedString => "Unterminated string starting at"
  | .controlCharacter => "Invalid control character at"
  | .badEscape => "Invalid \\escape"
  | .badUnicodeEscape => "Invalid \\uXXXX escape"
  | .oversizedInteger => "Integer has too many digits"
  | .tooDeep => "Values are nested too deep"

/-- A cause and the number of characters that were left to read where it shows. -/
structure Stop where
  /-- What is wrong. -/
  cause : Cause
  /-- How many characters were left. -/
  left : Nat

/-- A value that was read from the start of a text, and the shorter rest. -/
structure Scanned (α : Type) (cs : List Char) where
  /-- The value. -/
  value : α
  /-- The characters after it. -/
  rest : List Char
  /-- Something was read. -/
  shorter : rest.length < cs.length

/-- The outcome of a reader. -/
abbrev ReadResult (α : Type) (cs : List Char) :=
  Except Stop (Scanned α cs)

/-- The blanks of JSON. -/
def isJsonBlank (c : Char) : Bool :=
  c == ' ' || c == '\t' || c == '\n' || c == '\r'

/-- The text after its leading blanks. -/
def skip (cs : List Char) : List Char :=
  cs.dropWhile isJsonBlank

/-- Skipping blanks leaves no more to read. -/
theorem length_skip_le (cs : List Char) : (skip cs).length ≤ cs.length :=
  (List.dropWhile_sublist _).length_le

/-- The value of a hexadecimal digit. -/
def hexValue? (c : Char) : Option Nat :=
  if '0' ≤ c ∧ c ≤ '9' then some (c.toNat - '0'.toNat)
  else if 'a' ≤ c ∧ c ≤ 'f' then some (c.toNat - 'a'.toNat + 10)
  else if 'A' ≤ c ∧ c ≤ 'F' then some (c.toNat - 'A'.toNat + 10)
  else none

/-- The number that four hexadecimal digits write, if at least one more character follows them. -/
def fourHex? : List Char → Option Nat
  | a :: b :: c :: d :: _ :: _ =>
    match hexValue? a, hexValue? b, hexValue? c, hexValue? d with
    | some a, some b, some c, some d => some (((a * 16 + b) * 16 + c) * 16 + d)
    | _, _, _, _ => none
  | _ => none

/-- The number is the first half of a pair of units that stand for one character. -/
def isHighUnit (n : Nat) : Bool :=
  0xD800 ≤ n && n < 0xDC00

/-- The number is the second half of such a pair. -/
def isLowUnit (n : Nat) : Bool :=
  0xDC00 ≤ n && n < 0xE000

/-- The character of a pair of units. -/
def charOfPair (high low : Nat) : Char :=
  Char.ofNat (0x10000 + (high - 0xD800) * 0x400 + (low - 0xDC00))

/-- The character that a backslash and a letter stand for. -/
def simpleEscape? (c : Char) : Option Char :=
  if c = '"' ∨ c = '\\' ∨ c = '/' then some c
  else if c = 'b' then some (Char.ofNat 0x08)
  else if c = 'f' then some (Char.ofNat 0x0C)
  else if c = 'n' then some '\n'
  else if c = 'r' then some '\r'
  else if c = 't' then some '\t'
  else none

/-- The code point of the escape whose first four digits come first, and the number of characters
read. A second escape belongs to it if it completes a pair, and at least one character follows. -/
def unicodeEscape (cs : List Char) : Except Stop (CodePoint × Nat) :=
  match fourHex? cs with
  | none => .error ⟨.badUnicodeEscape, cs.length + 1⟩
  | some unit =>
    match isHighUnit unit, cs.drop 4 with
    | true, '\\' :: 'u' :: more =>
      if more.length < 5 then .ok (.ofNat unit, 4)
      else
        match fourHex? more with
        | none => .error ⟨.badUnicodeEscape, more.length + 1⟩
        | some low =>
          if isLowUnit low then .ok (.char (charOfPair unit low), 10) else .ok (.ofNat unit, 4)
    | _, _ => .ok (.ofNat unit, 4)

/-- The code points of a string up to its closing quotation mark, and the rest of the text. The
string started where `start` characters were left. -/
def stringPoints (start : Nat) (cs : List Char) : Except Stop (List CodePoint × List Char) :=
  match cs with
  | [] => .error ⟨.unterminatedString, start⟩
  | '"' :: rest => .ok ([], rest)
  | '\\' :: rest =>
    match rest with
    | [] => .error ⟨.unterminatedString, start⟩
    | 'u' :: digits =>
      match unicodeEscape digits with
      | .error stop => .error stop
      | .ok (point, size) =>
        match stringPoints start (digits.drop size) with
        | .error stop => .error stop
        | .ok (points, after) => .ok (point :: points, after)
    | letter :: after =>
      match simpleEscape? letter with
      | none => .error ⟨.badEscape, cs.length⟩
      | some c =>
        match stringPoints start after with
        | .error stop => .error stop
        | .ok (points, after) => .ok (.char c :: points, after)
  | c :: rest =>
    if c.toNat ≤ 0x1F then .error ⟨.controlCharacter, cs.length⟩
    else
      match stringPoints start rest with
      | .error stop => .error stop
      | .ok (points, after) => .ok (.char c :: points, after)
  termination_by cs.length
  decreasing_by all_goals simp <;> omega

/-- A string that was read leaves less to read. -/
theorem length_of_stringPoints {start : Nat} {cs rest : List Char} {points : List CodePoint}
    (h : stringPoints start cs = .ok (points, rest)) : rest.length < cs.length := by
  fun_induction stringPoints start cs generalizing points with
  | case1 => cases h
  | case2 => cases h; simp
  | case3 => cases h
  | case4 => cases h
  | case5 => cases h
  | case6 digits c size hsize inner after hinner ih =>
    cases h
    have := ih hinner
    simp at this ⊢
    omega
  | case7 => cases h
  | case8 => cases h
  | case9 letter after c hletter hsimple inner after' hinner ih =>
    cases h
    have := ih hinner
    simp at this ⊢
    omega
  | case10 => cases h
  | case11 => cases h
  | case12 c rest hquote hslash hcontrol inner after hinner ih =>
    cases h
    have := ih hinner
    simp at this ⊢
    omega

/-- The string whose opening quotation mark comes first. -/
def readString (cs : List Char) : ReadResult CodeString cs :=
  match h : stringPoints cs.length cs.tail with
  | .error stop => .error stop
  | .ok (points, rest) =>
    .ok ⟨⟨points⟩, rest, by
      have := length_of_stringPoints h
      rw [List.length_tail] at this
      omega⟩

/-- The digits at the start of a text. -/
def digits (cs : List Char) : List Char :=
  cs.takeWhile Char.isDigit

/-- The digits of a whole number: a zero, or digits that do not start with one. -/
def wholeDigits (cs : List Char) : List Char :=
  match cs with
  | '0' :: _ => ['0']
  | _ => digits cs

/-- The fraction at the start of a text: a point and at least one digit. -/
def fraction (cs : List Char) : List Char :=
  match cs with
  | '.' :: rest => if digits rest = [] then [] else '.' :: digits rest
  | _ => []

/-- The exponent at the start of a text: its letter, perhaps a sign, and at least one digit. -/
def exponent (cs : List Char) : List Char :=
  match cs with
  | [] => []
  | letter :: rest =>
    if letter = 'e' ∨ letter = 'E' then
      let sign := rest.take 1 |>.filter fun c => c == '+' || c == '-'
      let magnitude := digits (rest.drop sign.length)
      if magnitude = [] then [] else letter :: sign ++ magnitude
    else []

/-- The integer with this sign and these digits. -/
def makeInteger (negative : Bool) (digits : List Char) : Option Int :=
  (Text.readNatural digits).map fun n => if negative then -(n : Int) else n

/-- The number at the start of a text. -/
def readNumber (cs : List Char) : ReadResult Json cs :=
  let sign := cs.take 1 |>.filter (· == '-')
  let afterSign := cs.drop sign.length
  let whole := wholeDigits afterSign
  let part := fraction (afterSign.drop whole.length)
  let power := exponent ((afterSign.drop whole.length).drop part.length)
  let size := sign.length + whole.length + part.length + power.length
  if h : whole ≠ [] ∧ cs ≠ [] then
    have shorter : (cs.drop size).length < cs.length := by
      have h₁ := List.length_pos_iff.2 h.1
      have h₂ := List.length_pos_iff.2 h.2
      rw [List.length_drop]
      omega
    if part = [] ∧ power = [] then
      match makeInteger (sign ≠ []) whole with
      | some n => .ok ⟨.integer n, cs.drop size, shorter⟩
      | none => .error ⟨.oversizedInteger, cs.length⟩
    else .ok ⟨.decimal (String.ofList (cs.take size)), cs.drop size, shorter⟩
  else .error ⟨.expectingValue, cs.length⟩

/-- The words that are values. -/
def words : List (String × Json) :=
  [("null", .null), ("true", .bool true), ("false", .bool false), ("NaN", .decimal "NaN"),
    ("Infinity", .decimal "Infinity"), ("-Infinity", .decimal "-Infinity")]

/-- The word or number at the start of a text. -/
def readAtom (cs : List Char) : ReadResult Json cs :=
  match words.find? fun word => word.1.toList.isPrefixOf cs with
  | some (word, value) =>
    if h : 0 < word.toList.length ∧ cs ≠ [] then
      .ok ⟨value, cs.drop word.toList.length, by
        have := List.length_pos_iff.2 h.2
        rw [List.length_drop]
        omega⟩
    else .error ⟨.expectingValue, cs.length⟩
  | none => readNumber cs

mutual

/-- The value at the start of a text. At most `nesting` arrays and objects may be open at once. -/
def readValue (nesting : Nat) (cs : List Char) : ReadResult Json cs :=
  match cs with
  | '"' :: rest =>
    match readString ('"' :: rest) with
    | .error stop => .error stop
    | .ok s => .ok ⟨.string s.value, s.rest, s.shorter⟩
  | '[' :: rest =>
    match nesting with
    | 0 => .error ⟨.tooDeep, ('[' :: rest).length⟩
    | nesting + 1 =>
      have hskip := length_skip_le rest
      match hinner : skip rest with
      | ']' :: after =>
        .ok ⟨.array [], after, by
          have := congrArg List.length hinner
          simp only [List.length_cons] at this ⊢
          omega⟩
      | inner =>
        have : inner.length < ('[' :: rest).length := by
          have := congrArg List.length hinner
          simp only [List.length_cons]
          omega
        match readItems nesting inner with
        | .error stop => .error stop
        | .ok r => .ok ⟨.array r.value, r.rest, Nat.lt_trans r.shorter this⟩
  | '\x7b' :: rest =>
    match nesting with
    | 0 => .error ⟨.tooDeep, ('\x7b' :: rest).length⟩
    | nesting + 1 =>
      have hskip := length_skip_le rest
      match hinner : skip rest with
      | '\x7d' :: after =>
        .ok ⟨.object [], after, by
          have := congrArg List.length hinner
          simp only [List.length_cons] at this ⊢
          omega⟩
      | inner =>
        have : inner.length < ('\x7b' :: rest).length := by
          have := congrArg List.length hinner
          simp only [List.length_cons]
          omega
        match readMembers nesting inner with
        | .error stop => .error stop
        | .ok r =>
          .ok ⟨.object (Entries.ofPairs r.value), r.rest, Nat.lt_trans r.shorter this⟩
  | cs => readAtom cs
  termination_by 2 * cs.length

/-- The items of an array up to its closing bracket. -/
def readItems (nesting : Nat) (cs : List Char) : ReadResult (List Json) cs :=
  match readValue nesting cs with
  | .error stop => .error stop
  | .ok item =>
    have hitem := item.shorter
    have hskip := length_skip_le item.rest
    match hafter : skip item.rest with
    | ']' :: rest =>
      .ok ⟨[item.value], rest, by
        have := congrArg List.length hafter
        simp only [List.length_cons] at this
        omega⟩
    | ',' :: rest =>
      have : (skip rest).length < cs.length := by
        have := congrArg List.length hafter
        have := length_skip_le rest
        simp only [List.length_cons] at *
        omega
      match readItems nesting (skip rest) with
      | .error stop => .error stop
      | .ok others =>
        .ok ⟨item.value :: others.value, others.rest, Nat.lt_trans others.shorter this⟩
    | after => .error ⟨.expectingComma, after.length⟩
  termination_by 2 * cs.length + 1

/-- The members of an object up to its closing brace. -/
def readMembers (nesting : Nat) (cs : List Char) : ReadResult (List (CodeString × Json)) cs :=
  match cs with
  | '"' :: tail =>
    match readString ('"' :: tail) with
    | .error stop => .error stop
    | .ok key =>
      have hkey := key.shorter
      have hskip := length_skip_le key.rest
      match hcolon : skip key.rest with
      | ':' :: start =>
        have hstart : (skip start).length < ('"' :: tail).length := by
          have := congrArg List.length hcolon
          have := length_skip_le start
          simp only [List.length_cons] at *
          omega
        match readValue nesting (skip start) with
        | .error stop => .error stop
        | .ok value =>
          have hvalue := value.shorter
          have hskip := length_skip_le value.rest
          match hafter : skip value.rest with
          | '\x7d' :: rest =>
            .ok ⟨[(key.value, value.value)], rest, by
              have := congrArg List.length hafter
              simp only [List.length_cons] at *
              omega⟩
          | ',' :: rest =>
            have : (skip rest).length < ('"' :: tail).length := by
              have := congrArg List.length hafter
              have := length_skip_le rest
              simp only [List.length_cons] at *
              omega
            match readMembers nesting (skip rest) with
            | .error stop => .error stop
            | .ok others =>
              .ok ⟨(key.value, value.value) :: others.value, others.rest,
                Nat.lt_trans others.shorter this⟩
          | after => .error ⟨.expectingComma, after.length⟩
      | after => .error ⟨.expectingColon, after.length⟩
  | cs => .error ⟨.expectingName, cs.length⟩
  termination_by 2 * cs.length + 1
  decreasing_by all_goals simp only [List.length_cons] at *; omega

end

/-- Why and where a text is no JSON value. -/
structure Fault where
  /-- What is wrong. -/
  cause : Cause
  /-- The number of characters before the place. -/
  position : Nat
  /-- The line, counted from one. -/
  line : Nat
  /-- The column, counted from one. -/
  column : Nat
  deriving DecidableEq, Repr

/-- The fault of a text with its line and column. -/
def Stop.toFault (s : Stop) (text : List Char) : Fault :=
  let position := text.length - s.left
  let before := text.take position
  ⟨s.cause, position, before.count '\n' + 1, (before.reverse.takeWhile (· != '\n')).length + 1⟩

/-- The report of a fault. -/
def Fault.message (f : Fault) : String :=
  s!"{f.cause.message}: line {f.line} column {f.column} (char {f.position})"

/-- The one value that a text consists of. -/
def readAll (nesting : Nat) (text : List Char) : Except Stop Json :=
  if text.head? = some '\uFEFF' then .error ⟨.byteOrderMark, text.length⟩
  else
    match readValue nesting (skip text) with
    | .error stop => .error stop
    | .ok r =>
      if skip r.rest = [] then .ok r.value else .error ⟨.extraData, (skip r.rest).length⟩

/-- The JSON value that a text writes. At most `nesting` arrays and objects may be open at once. -/
def read (nesting : Nat) (text : String) : Except Fault Json :=
  (readAll nesting text.toList).mapError (·.toFault text.toList)

end MessageFormat.Json
