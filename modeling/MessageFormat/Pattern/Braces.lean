import MessageFormat.Pattern.Quoting

/-!
# Braces

Reading up to a brace. `closing` finds the unquoted brace that closes what was opened before it,
and `upTo` reads until such a brace or one of a set of stop characters. Both count the braces
opened and closed in between and pass over quoted ones, because they look at glyphs.

`append_of_closing` says what `closing` finds: the text before the brace, the brace, the rest.
-/

namespace MessageFormat

/-- The unquoted opening brace. -/
abbrev Glyph.openBrace : Glyph :=
  .bare '\x7b'

/-- The unquoted closing brace. -/
abbrev Glyph.closeBrace : Glyph :=
  .bare '\x7d'

/-- The number of braces that are open after a glyph when `depth` were open before it. -/
def Glyph.depthAfter (depth : Nat) (g : Glyph) : Nat :=
  if g = .openBrace then depth + 1
  else if g = .closeBrace then depth - 1
  else depth

/-- The glyphs before the brace that closes one more than the `depth` open braces, and the glyphs
after it. There are none when the text ends first. -/
def closing (depth : Nat) : List Glyph → Option (List Glyph × List Glyph)
  | [] => none
  | g :: rest =>
    if g = .closeBrace ∧ depth = 0 then some ([], rest)
    else (closing (g.depthAfter depth) rest).map fun (body, after) => (g :: body, after)

/-- Braces and apostrophes are never stop characters. -/
def isStop (stops : Char → Bool) (c : Char) : Bool :=
  stops c && c != '\x7b' && c != '\x7d' && c != '\''

/-- The glyphs up to the first closing brace that `depth` open braces do not account for, or to
the first stop character outside all braces. -/
def upTo (stops : Char → Bool) (depth : Nat) : List Glyph → List Glyph
  | [] => []
  | g :: rest =>
    if depth = 0 ∧ (g = .closeBrace ∨ g.isBare (isStop stops)) then []
    else g :: upTo stops (g.depthAfter depth) rest

/-- A body that was closed is followed by its closing brace and the rest. -/
theorem append_of_closing {depth : Nat} {gs body rest : List Glyph}
    (h : closing depth gs = some (body, rest)) : gs = body ++ .closeBrace :: rest := by
  induction gs generalizing depth body with
  | nil => simp [closing] at h
  | cons g gs ih =>
    rw [closing] at h
    split at h
    · simp_all
    · obtain ⟨⟨inner, after⟩, hinner, heq⟩ := Option.map_eq_some_iff.1 h
      obtain ⟨rfl, rfl⟩ := Prod.mk.inj heq
      simp [ih hinner]

/-- What was read is the beginning of the text. -/
theorem upTo_append (stops : Char → Bool) (depth : Nat) (gs : List Glyph) :
    upTo stops depth gs ++ gs.drop (upTo stops depth gs).length = gs := by
  induction gs generalizing depth with
  | nil => rfl
  | cons g rest ih =>
    rw [upTo]
    split
    · rfl
    · simp [ih]

end MessageFormat
