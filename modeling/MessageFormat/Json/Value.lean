import MessageFormat.Data.Entries
import MessageFormat.Text.CodeString

/-!
# JSON values

Values with ordered objects. A number without fraction and exponent is an integer; any other one
keeps its spelling, because only its being zero is ever asked for. A string need not be a text: an
escape can write half of a pair.
-/

namespace MessageFormat

/-- A JSON value. -/
inductive Json where
  | null
  | bool (b : Bool)
  | integer (n : Int)
  /-- A number with a fraction or an exponent, an infinite one, or no number at all. -/
  | decimal (spelling : String)
  | string (s : CodeString)
  | array (items : List Json)
  | object (members : List (CodeString × Json))
  deriving Repr, Inhabited

namespace Json

/-- An object whose keys are texts. -/
def ofMembers (members : List (String × Json)) : Json :=
  .object (members.map fun (key, value) => (.ofString key, value))

/-- A list of texts. -/
def ofStrings (values : List String) : Json :=
  .array (values.map fun s : String => .string s)

/-- A text, or nothing. -/
def ofString? : Option String → Json
  | none => .null
  | some s => .string s

/-- A natural number. -/
def ofNat (n : Nat) : Json :=
  .integer n

/-- The digits of a number. -/
def digitsOf (cs : List Char) : List Nat :=
  (cs.filter Char.isDigit).map fun c => c.toNat - '0'.toNat

/-- The number that digits write. -/
def natOfDigits (digits : List Nat) : Nat :=
  digits.foldl (fun n d => 10 * n + d) 0

/-- A number of this many digits before the point or fewer, after a shift by its exponent, is below
the least positive double by far. -/
def vanishingExponent : Int := -330

/-- The exponent of the power of two at which positive numbers round to zero. -/
def underflowBits : Nat := 1075

/-- The double nearest to a decimal number is zero. -/
def roundsToZero (spelling : String) : Bool :=
  let cs := spelling.toList
  let mantissa := cs.takeWhile fun c => c != 'e' && c != 'E'
  let exponentText := (cs.drop mantissa.length).tail
  let magnitude : Int := natOfDigits (digitsOf exponentText)
  let exponent := if exponentText.head? == some '-' then -magnitude else magnitude
  let fraction := (mantissa.dropWhile (· != '.')).tail
  let digits := digitsOf mantissa
  let value := natOfDigits digits
  let shift := exponent - fraction.length
  !digits.isEmpty && (value == 0 || (shift < 0 &&
    (digits.length + shift < vanishingExponent ||
      value <<< underflowBits ≤ Nat.pow 10 shift.natAbs)))

/-- The value says nothing: it is null, false, zero, or empty. -/
def isBlank : Json → Bool
  | .null => true
  | .bool b => !b
  | .integer n => n == 0
  | .decimal spelling => roundsToZero spelling
  | .string s => s.points.isEmpty
  | .array items => items.isEmpty
  | .object members => members.isEmpty

/-- The value of a member of an object. -/
def member? (members : List (CodeString × Json)) (key : CodeString) : Json :=
  (Entries.get? members key).getD .null

end Json

end MessageFormat
