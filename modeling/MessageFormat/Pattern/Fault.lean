/-!
# Faults

Why a text is not a message. A `Cause` says what is wrong, a `Fault` where, and a `ParseError`
also in which message. `locate` is the one place where a report is put into words.
-/

namespace MessageFormat

/-- What is wrong with a text that is not a message. -/
inductive Cause where
  /-- A brace is closed that none opened, or one that was opened is not closed. -/
  | unmatchedBraces
  /-- A placeholder does not start with a name. -/
  | missingName
  /-- The name in a placeholder is followed by neither a comma nor the closing brace. -/
  | unexpected (c : Char)
  /-- A comma is not followed by a type. -/
  | missingType
  /-- Something follows the type that is neither a comma nor the closing brace. -/
  | missingClose
  /-- The offset of a plural is not an integer. -/
  | badOffset
  /-- A plural variant has no category. -/
  | missingCategory
  /-- A plural category has no text. -/
  | missingVariant
  /-- A select option has no key. -/
  | missingKey
  /-- A select key has no text. -/
  | missingOption
  deriving DecidableEq, Repr

namespace Cause

/-- The wording of a cause. -/
def message : Cause → String
  | .unmatchedBraces => "Unmatched braces in message"
  | .missingName => "Expected identifier in argument"
  | .unexpected c => s!"Unexpected character '{c}' in argument"
  | .missingType => "Expected argument type"
  | .missingClose => "Expected \x7d after argument"
  | .badOffset => "Invalid offset value"
  | .missingCategory => "Expected plural category"
  | .missingVariant => "Expected \x7b after plural category"
  | .missingKey => "Expected select key"
  | .missingOption => "Expected \x7b after select key"

end Cause

/-- A cause and the number of characters before the place where it shows. -/
structure Fault where
  /-- What is wrong. -/
  cause : Cause
  /-- Where it shows. -/
  position : Nat
  deriving DecidableEq, Repr

namespace Fault

/-- The same fault seen from a text in which `offset` more characters come first. -/
def shift (offset : Nat) (f : Fault) : Fault :=
  { f with position := offset + f.position }

end Fault

/-- A report with its position, if it has one. -/
def locate (cause : String) : Option Int → String
  | none => cause
  | some position => s!"{cause} at position {position}"

/-- A fault in a message. -/
structure ParseError where
  /-- The fault. -/
  fault : Fault
  /-- The whole message. -/
  source : String
  deriving DecidableEq, Repr

namespace ParseError

/-- The report of the fault with its position in the message. -/
def message (e : ParseError) : String :=
  locate e.fault.cause.message (some e.fault.position)

end ParseError

end MessageFormat
