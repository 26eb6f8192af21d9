/-!
# Blank characters

Which characters count as blank between the parts of a placeholder, around a format style and at
the ends of a line, and how a text is trimmed of them. The set is the one Unicode calls white
space together with the four information separators U+001C to U+001F. `trimBoth_eq_self` says
when trimming leaves a text alone.
-/

namespace MessageFormat.Text

/-- The blank characters: Unicode white space and the separators U+001C to U+001F. -/
def isBlank (c : Char) : Bool :=
  let n := c.toNat
  (0x9 ≤ n && n ≤ 0xD) || (0x1C ≤ n && n ≤ 0x20) || n == 0x85 || n == 0xA0 || n == 0x1680 ||
    (0x2000 ≤ n && n ≤ 0x200A) || n == 0x2028 || n == 0x2029 || n == 0x202F || n == 0x205F ||
    n == 0x3000

/-- The characters that satisfy `p` are dropped at the end of a text. -/
def trimEnd (p : Char → Bool) (cs : List Char) : List Char :=
  (cs.reverse.dropWhile p).reverse

/-- The characters that satisfy `p` are dropped at both ends of a text. -/
def trimBoth (p : Char → Bool) (cs : List Char) : List Char :=
  trimEnd p (cs.dropWhile p)

/-- A text without the blanks at its ends. -/
def strip (cs : List Char) : List Char :=
  trimBoth isBlank cs

/-- Trimming the end keeps a text whose last character does not satisfy `p`. -/
theorem trimEnd_append_singleton {p : Char → Bool} {cs : List Char} {c : Char}
    (hc : p c = false) : trimEnd p (cs ++ [c]) = cs ++ [c] := by
  simp [trimEnd, hc]

/-- A text is kept whole when neither its first nor its last character satisfies `p`. -/
theorem trimBoth_eq_self {p : Char → Bool} {cs : List Char}
    (hfirst : ∀ c ∈ cs.head?, p c = false) (hlast : ∀ c ∈ cs.getLast?, p c = false) :
    trimBoth p cs = cs := by
  have hdrop : cs.dropWhile p = cs := by
    cases cs with
    | nil => rfl
    | cons c r => simp [hfirst c rfl]
  rcases List.eq_nil_or_concat cs with rfl | ⟨r, c, rfl⟩
  · rfl
  · rw [trimBoth, hdrop, List.concat_eq_append]
    exact trimEnd_append_singleton (hlast c (by simp))

end MessageFormat.Text
