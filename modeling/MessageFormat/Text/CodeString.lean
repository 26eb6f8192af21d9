/-!
# Strings of code points

What a string with escapes can write: characters, and halves of the pairs of units that stand for
one character. A half without the other half has no encoding. A string that holds one is no text
and cannot be printed, although it can be compared and kept like any other.
-/

namespace MessageFormat

/-- A code point of a string. -/
inductive CodePoint where
  /-- A character. -/
  | char (c : Char)
  /-- A half of a pair that stands alone, by its place among all the halves. -/
  | half (place : Fin 0x800)
  deriving DecidableEq, Repr

namespace CodePoint

/-- The number of the first half. -/
def firstHalf : Nat := 0xD800

/-- The code point with a number. -/
def ofNat (n : Nat) : CodePoint :=
  if h : firstHalf ≤ n ∧ n < firstHalf + 0x800 then .half ⟨n - firstHalf, by omega⟩
  else .char (Char.ofNat n)

/-- The character that a code point is; a half is none. -/
def char? : CodePoint → Option Char
  | .char c => some c
  | .half _ => none

end CodePoint

/-- A string of code points. -/
structure CodeString where
  /-- Its code points in order. -/
  points : List CodePoint
  deriving DecidableEq, Repr, Inhabited

namespace CodeString

/-- A text as a string. -/
def ofString (s : String) : CodeString :=
  ⟨s.toList.map .char⟩

instance : Coe String CodeString :=
  ⟨ofString⟩

instance : Append CodeString :=
  ⟨fun s t => ⟨s.points ++ t.points⟩⟩

/-- The text that a string is; none if it holds a half. -/
def text? (s : CodeString) : Option String :=
  (s.points.mapM CodePoint.char?).map String.ofList

/-- The string is a text. -/
def isText (s : CodeString) : Bool :=
  s.text?.isSome

/-- The text of a string is the one that it is made of. -/
theorem text?_eq_some_iff {s : CodeString} {t : String} : s.text? = some t ↔ s = ofString t := by
  have hpoints : ∀ (points : List CodePoint) (cs : List Char),
      points.mapM CodePoint.char? = some cs ↔ points = cs.map .char := by
    intro points
    induction points with
    | nil => simp [eq_comm]
    | cons point points ih =>
      intro cs
      cases point <;> cases cs <;> simp [CodePoint.char?, Option.bind_eq_some_iff, ih]
      exact and_comm
  obtain ⟨points⟩ := s
  simp [text?, ofString, hpoints, ← String.toList_inj]

end CodeString

end MessageFormat
