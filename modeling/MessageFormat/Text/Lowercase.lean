import MessageFormat.Text.CaseTable

/-!
# Lowercase

The lowercase of a text by the full rules of Unicode: most characters have one of their own, the
capital I with a dot becomes two characters, and a capital sigma at the end of a word has a form
of its own.
-/

namespace MessageFormat.Text

/-- A character lies in one of the ranges. -/
def inRanges (ranges : List (Nat × Nat)) (c : Char) : Bool :=
  ranges.any fun (first, last) => first ≤ c.toNat && c.toNat ≤ last

/-- The lowercase of a character that has one of its own. -/
def simpleLowercase (c : Char) : Char :=
  match lowercaseRuns.find? fun (first, last, step, _) =>
      first ≤ c.toNat && c.toNat ≤ last && (c.toNat - first) % step == 0 with
  | some (first, _, _, lower) => Char.ofNat (lower + (c.toNat - first))
  | none => c

/-- The first character that is not passed over is a cased letter. -/
def meetsCased (cs : List Char) : Bool :=
  (cs.find? fun c => !inRanges caseIgnorableRanges c).any (inRanges casedRanges)

/-- The lowercase of a character between the characters before it, the nearest first, and those
after it. A sigma ends a word if a cased letter comes before it and none after it. -/
def lowercaseBetween (before : List Char) (c : Char) (after : List Char) : List Char :=
  if c.toNat = 0x130 then ['i', Char.ofNat 0x307]
  else if c.toNat = 0x3A3 then
    if meetsCased before && !meetsCased after then [Char.ofNat 0x3C2] else [Char.ofNat 0x3C3]
  else [simpleLowercase c]

/-- The lowercase of a text that comes after `before`, which is given in reverse. -/
def lowercaseAfter (before : List Char) : List Char → List Char
  | [] => []
  | c :: rest => lowercaseBetween before c rest ++ lowercaseAfter (c :: before) rest

/-- The lowercase of a text. -/
def lowercase (cs : List Char) : List Char :=
  lowercaseAfter [] cs

end MessageFormat.Text
