import MessageFormat.Text.Blank

/-!
# Integers

Integers as people write them: a sign, then decimal digits of any script, with single underscores
between digits. `readInteger` reads such a text. `digitValue?` holds the decimal digits of
Unicode, whose zeros each start a run of ten.
-/

namespace MessageFormat.Text

/-- The digits zero of the scripts that have decimal digits. -/
def zeroDigits : List Nat :=
  [0x30, 0x660, 0x6F0, 0x7C0, 0x966, 0x9E6, 0xA66, 0xAE6, 0xB66, 0xBE6, 0xC66, 0xCE6, 0xD66,
   0xDE6, 0xE50, 0xED0, 0xF20, 0x1040, 0x1090, 0x17E0, 0x1810, 0x1946, 0x19D0, 0x1A80, 0x1A90,
   0x1B50, 0x1BB0, 0x1C40, 0x1C50, 0xA620, 0xA8D0, 0xA900, 0xA9D0, 0xA9F0, 0xAA50, 0xABF0, 0xFF10,
   0x104A0, 0x10D30, 0x11066, 0x110F0, 0x11136, 0x111D0, 0x112F0, 0x11450, 0x114D0, 0x11650,
   0x116C0, 0x11730, 0x118E0, 0x11950, 0x11C50, 0x11D50, 0x11DA0, 0x16A60, 0x16AC0, 0x16B50,
   0x1D7CE, 0x1D7D8, 0x1D7E2, 0x1D7EC, 0x1D7F6, 0x1E140, 0x1E2F0, 0x1E950, 0x1FBF0]

/-- The value of a decimal digit of any script. -/
def digitValue? (c : Char) : Option Nat :=
  (zeroDigits.find? fun least => least ≤ c.toNat && c.toNat < least + 10).map (c.toNat - ·)

/-- The blanks that may surround an integer: all but the information separators. -/
def isIntegerBlank (c : Char) : Bool :=
  isBlank c && !(0x1C ≤ c.toNat && c.toNat ≤ 0x1F)

/-- The digits of a number are read in groups joined by single underscores; `none` unless every
group has a digit. -/
def digitGroups (cs : List Char) : Option (List Nat) :=
  match cs with
  | [] => none
  | [c] => (digitValue? c).map ([·])
  | c :: d :: rest =>
    match digitValue? c with
    | none => none
    | some value =>
      if d = '_' then (digitGroups rest).map (value :: ·)
      else (digitGroups (d :: rest)).map (value :: ·)

/-- The number with the given decimal digits, the most significant first. -/
def ofDigits (digits : List Nat) : Nat :=
  digits.foldl (fun n digit => 10 * n + digit) 0

/-- The most digits that an integer may be written with. -/
def maxDigits : Nat := 4300

/-- The natural number that a text without sign and blanks writes. -/
def readNatural (cs : List Char) : Option Nat :=
  match digitGroups cs with
  | none => none
  | some digits => if digits.length ≤ maxDigits then some (ofDigits digits) else none

/-- The integer that a text writes. -/
def readInteger (cs : List Char) : Option Int :=
  match trimBoth isIntegerBlank cs with
  | '-' :: rest => (readNatural rest).map fun n => -(n : Int)
  | '+' :: rest => (readNatural rest).map Int.ofNat
  | rest => (readNatural rest).map Int.ofNat

end MessageFormat.Text
