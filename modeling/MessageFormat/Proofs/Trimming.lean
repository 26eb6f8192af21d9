import MessageFormat.Proofs.Endings

/-!
# Trimmed formats

The style of an argument is its format without the blanks around it. The style is enclosed where the
format was (`Grammar.Enclosed.strip_iff`), unless it ends in an apostrophe by itself, which quotes
the brace that comes to stand after it.
-/

namespace MessageFormat

open Grammar

/-! ### Blanks at both ends -/

/-- The longest run of a class in front of a text is dropped. -/
theorem dropWhile_class_run {p : Char → Bool} {s t : List Char} (hs : ∀ c ∈ s, p c = true)
    (ht : ∀ c ∈ t.head?, p c = false) : (s ++ t).dropWhile p = t := by
  rw [List.dropWhile_append_of_pos hs]
  cases t with
  | nil => rfl
  | cons c t => rw [List.dropWhile_cons_of_neg (by simp [ht c rfl])]

/-- A text is its stripped form with blanks around it, and the stripped form neither starts nor ends
with a blank. -/
theorem exists_strip (cs : List Char) :
    ∃ w w', cs = w ++ (Text.strip cs ++ w') ∧ Blank w ∧ Blank w' ∧
      (∀ c ∈ (Text.strip cs).head?, Text.isBlank c = false) ∧
      ∀ c ∈ (Text.strip cs).getLast?, Text.isBlank c = false := by
  obtain ⟨w, rest, rfl, hw, hrest⟩ := exists_blank_run cs
  obtain ⟨u, body, heq, hu, hbody⟩ := exists_blank_run rest.reverse
  have hrest' : rest = body.reverse ++ u.reverse := by
    rw [← List.reverse_append, ← heq, List.reverse_reverse]
  have hstrip : Text.strip (w ++ rest) = body.reverse := by
    rw [Text.strip, Text.trimBoth, dropWhile_class_run hw hrest, Text.trimEnd, heq,
      dropWhile_class_run hu hbody]
  rw [hstrip]
  refine ⟨w, u.reverse, by rw [← hrest'], hw, fun c hc => hu c (List.mem_reverse.1 hc), ?_, ?_⟩
  · intro c hc
    apply hrest c
    rw [hrest', List.head?_append, Option.mem_def.1 hc]
    rfl
  · intro c hc
    rw [List.getLast?_reverse] at hc
    exact hbody c hc

/-- Blanks in front of a format do not count for the style. -/
theorem strip_blank_append {w : List Char} (hw : Blank w) (format : List Char) :
    Text.strip (w ++ format) = Text.strip format := by
  rw [Text.strip, Text.strip, Text.trimBoth, Text.trimBoth,
    List.dropWhile_append_of_pos fun c hc => hw c hc]

/-- A stripped text has no blanks to be stripped of. -/
theorem strip_strip (cs : List Char) : Text.strip (Text.strip cs) = Text.strip cs := by
  obtain ⟨-, -, -, -, -, hfirst, hlast⟩ := exists_strip cs
  exact Text.trimBoth_eq_self hfirst hlast

/-! ### Styles before the closing brace -/

/-- The style of an enclosed format is balanced. -/
theorem Grammar.Enclosed.balanced_strip {format : List Char} (h : Enclosed 0 format) :
    Balanced (Text.strip format) := by
  obtain ⟨w, w', heq, hw, hw', -, -⟩ := exists_strip format
  rw [heq] at h
  exact ((hw.plain.enclosed_of_append h).balanced_of_append_blank hw').1

/-- The style of an enclosed format is enclosed exactly if it does not end in an apostrophe by
itself. -/
theorem Grammar.Enclosed.strip_iff {format : List Char} (h : Enclosed 0 format) :
    Enclosed 0 (Text.strip format) ↔
      (glyphs .outside (Text.strip format)).getLast? ≠ some (.bare '\'') := by
  obtain ⟨w, w', heq, hw, hw', -, -⟩ := exists_strip format
  rw [heq] at h
  exact (hw.plain.enclosed_of_append h).iff_of_append_blank hw'

end MessageFormat
