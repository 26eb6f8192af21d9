import MessageFormat.Proofs.Enclosure

/-!
# Places outside quotation

A message is read at places where no quotation is open, so that what remains is a text of its own:
`Place.before i s` is the place before the text `s`. The lemmas say where each step of a reading
leads from such a place, which is to another one. Readers are followed with them alone.
-/

namespace MessageFormat

open Grammar

/-- The text has neither braces nor apostrophes. -/
def Plain (s : List Char) : Prop :=
  ∀ c ∈ s, c ≠ '{' ∧ c ≠ '}' ∧ c ≠ '\''

/-- A character class without braces and apostrophes. -/
class PlainClass (p : Char → Bool) : Prop where
  /-- It has no opening brace. -/
  opening : p '{' = false
  /-- It has no closing brace. -/
  closing : p '}' = false
  /-- It has no apostrophe. -/
  apostrophe : p '\'' = false

instance : PlainClass Text.isBlank := ⟨rfl, rfl, rfl⟩
instance : PlainClass isNameChar := ⟨rfl, rfl, rfl⟩

/-- Texts of such a class are plain. -/
theorem plain_of_class {p : Char → Bool} [hp : PlainClass p] {s : List Char}
    (hs : ∀ c ∈ s, p c = true) : Plain s := by
  intro c hc
  have hin := hs c hc
  refine ⟨?_, ?_, ?_⟩ <;> rintro rfl
  · rw [hp.opening] at hin; cases hin
  · rw [hp.closing] at hin; cases hin
  · rw [hp.apostrophe] at hin; cases hin

/-- Blanks are plain. -/
theorem Grammar.Blank.plain {s : List Char} (h : Blank s) : Plain s :=
  plain_of_class h

/-- Names are plain. -/
theorem Grammar.Name.plain {s rest : List Char} (h : Name s rest) : Plain s :=
  plain_of_class h.chars

/-- There need not be a blank. -/
theorem Grammar.Blank.nil : Blank [] := by
  simp [Blank]

/-- A space is blank. -/
theorem Grammar.Blank.space : Blank [' '] := by
  intro c hc
  obtain rfl := List.mem_singleton.1 hc
  rfl

/-- Runs of blanks join to runs of blanks. -/
theorem Grammar.Blank.append {s t : List Char} (hs : Blank s) (ht : Blank t) : Blank (s ++ t) := by
  intro c hc
  exact (List.mem_append.1 hc).elim (hs c) (ht c)

/-- Texts are plain when their parts are. -/
theorem Plain.append {s t : List Char} (hs : Plain s) (ht : Plain t) : Plain (s ++ t) := by
  intro c hc
  exact (List.mem_append.1 hc).elim (hs c) (ht c)

/-- A character that is neither a brace nor an apostrophe is plain. -/
theorem plain_singleton {c : Char} (hc : c ≠ '{' ∧ c ≠ '}' ∧ c ≠ '\'') : Plain [c] := by
  intro d hd
  obtain rfl := List.mem_singleton.1 hd
  exact hc

/-- A plain text is plain with blanks around it. -/
theorem Plain.among_blanks {w₁ s w₂ : List Char} (hs : Plain s) (hw₁ : Blank w₁)
    (hw₂ : Blank w₂) : Plain (w₁ ++ s ++ w₂) :=
  (hw₁.plain.append hs).append hw₂.plain

/-- A plain text is read into bare glyphs. -/
theorem Plain.text_glyphs {s : List Char} (hs : Plain s) (t : List Char) :
    TextGlyphs .outside s s t (s.map .bare) := by
  induction s with
  | nil => exact .nil t
  | cons c s ih =>
      obtain ⟨hopen, hclose, hquote⟩ := hs c (by simp)
      refine .cons (g := .bare c) ?_ ?_ (ih fun d hd => hs d (List.mem_cons_of_mem _ hd))
      · simp [Quoting.step, Quoting.outside, hquote]
      · simp [Glyph.isText, hopen, hclose]

/-- Every text starts with a longest run of characters of a class. -/
theorem exists_class_run (p : Char → Bool) (cs : List Char) :
    ∃ s t, cs = s ++ t ∧ (∀ c ∈ s, p c = true) ∧ ∀ c ∈ t.head?, p c = false := by
  refine ⟨cs.takeWhile p, cs.dropWhile p, List.takeWhile_append_dropWhile.symm, ?_, ?_⟩
  · intro c hc
    exact List.all_eq_true.1 List.all_takeWhile c hc
  · intro c hc
    have := List.head?_dropWhile_not p cs
    rw [Option.mem_def.1 hc] at this
    simpa using this

/-- Every text starts with its blanks. -/
theorem exists_blank_run (cs : List Char) :
    ∃ w t, cs = w ++ t ∧ Blank w ∧ ∀ c ∈ t.head?, Text.isBlank c = false :=
  exists_class_run Text.isBlank cs

/-- Only the empty text has no glyphs. -/
@[simp] theorem glyphs_eq_nil_iff {q : Quoting} {s : List Char} : glyphs q s = [] ↔ s = [] := by
  rw [← List.length_eq_zero_iff, length_glyphs, List.length_eq_zero_iff]

/-- A character that is not in a class ends a run of it. -/
theorem forall_head?_cons {p : Char → Bool} {c : Char} {t : List Char} (hc : p c = false) :
    ∀ d ∈ (c :: t).head?, p d = false := by
  intro d hd
  obtain rfl := Option.some.inj hd
  exact hc

/-- The longest run of a class in a text is the longest run of bare glyphs of that class. -/
theorem takeWhile_glyphs {p : Char → Bool} [hp : PlainClass p] {s t : List Char}
    (hs : ∀ c ∈ s, p c = true) (ht : ∀ c ∈ t.head?, p c = false) :
    (glyphs .outside (s ++ t)).takeWhile (·.isBare p) = s.map .bare := by
  induction s with
  | nil =>
      cases t with
      | nil => rfl
      | cons c t =>
          have hc := ht c rfl
          have hbare : (Quoting.outside.step c t.head?).1.isBare p = false := by
            -- An apostrophe is in no class, whether it is a mark, a literal or bare.
            by_cases hcq : c = '\''
            · subst hcq
              simp only [Quoting.step, Quoting.outside, Bool.false_eq_true, if_false, if_true]
              split
              · rfl
              · split <;> simp [Glyph.isBare, hp.apostrophe]
            · simp [Quoting.step, Quoting.outside, hcq, Glyph.isBare, hc]
          simp [glyphs, hbare]
  | cons c s ih =>
      have hc := hs c (by simp)
      have hbare : Bare c := by
        constructor
        rintro rfl
        rw [hp.apostrophe] at hc
        cases hc
      rw [List.cons_append, glyphs_cons, List.takeWhile_cons_of_pos (by simpa [Glyph.isBare]),
        ih fun d hd => hs d (List.mem_cons_of_mem _ hd), List.map_cons]

namespace Place

/-- The place before the text `s`, where `i` characters have been read and no quotation is
open. -/
def before (i : Nat) (s : List Char) : Place :=
  ⟨i, glyphs .outside s⟩

variable {i : Nat} {s t : List Char} {c : Char}

@[simp] theorem pos_before : (before i s).pos = i :=
  rfl

@[simp] theorem rest_before : (before i s).rest = glyphs .outside s :=
  rfl

/-- Places before the same text are the same when as many characters were read. -/
theorem before_congr {j : Nat} (h : i = j) (t : List Char) : before i t = before j t := by
  rw [h]

/-- So are the readings that end there. -/
theorem ok_before_congr {α ε : Type} {j : Nat} (x : α) (h : i = j) (t : List Char) :
    (Except.ok (x, before i t) : Except ε (α × Place)) = .ok (x, before j t) := by
  rw [h]

/-- The place after a text whose glyphs are known. -/
theorem advance_before_of_glyphs {gs : List Glyph}
    (h : glyphs .outside (s ++ t) = gs ++ glyphs .outside t) (hlength : gs.length = s.length) :
    (before i (s ++ t)).advance s.length = before (i + s.length) t := by
  rw [advance, pos_before, rest_before, h, ← hlength, List.drop_left]
  rfl

/-- The place after a plain text. -/
theorem advance_before (hs : Plain s) :
    (before i (s ++ t)).advance s.length = before (i + s.length) t :=
  advance_before_of_glyphs (hs.text_glyphs t).glyphs_eq (hs.text_glyphs t).length_eq

/-- The place after a character that is no apostrophe. -/
theorem advance_before_cons [Bare c] : (before i (c :: t)).advance 1 = before (i + 1) t := by
  rw [advance, rest_before, glyphs_cons]
  rfl

/-- Blanks are skipped, all of them. -/
theorem skipBlanks_before (hs : Blank s) (ht : ∀ c ∈ t.head?, Text.isBlank c = false) :
    (before i (s ++ t)).skipBlanks = before (i + s.length) t := by
  rw [skipBlanks, rest_before, takeWhile_glyphs hs ht, List.length_map]
  exact advance_before hs.plain

/-- The name that starts a text. -/
theorem name_before (hs : ∀ c ∈ s, isNameChar c = true) (ht : ∀ c ∈ t.head?, isNameChar c = false) :
    (before i (s ++ t)).name = s := by
  rw [name, rest_before, takeWhile_glyphs hs ht, Glyph.spell, List.map_map]
  exact List.map_id s

/-- The first glyph of a text is its first character, unquoted unless that is an apostrophe. -/
theorem exists_head_glyph (d : Char) (t : List Char) :
    ∃ g gs, glyphs .outside (d :: t) = g :: gs ∧ g.char = d ∧
      ∀ c, c ≠ '\'' → (g = .bare c ↔ d = c) := by
  refine ⟨_, _, rfl, Quoting.char_step _ _ _, ?_⟩
  intro c hc
  constructor
  · intro h
    have hchar := Quoting.char_step .outside d t.head?
    rw [h] at hchar
    exact hchar.symm
  · rintro rfl
    simp [Quoting.step, Quoting.outside, hc]

/-- The next character, unless it is an apostrophe. -/
theorem isAt_before_cons {d : Char} [hc : Bare c] :
    (before i (d :: t)).isAt c = (d == c) := by
  obtain ⟨g, gs, hglyphs, -, hbare⟩ := exists_head_glyph d t
  rw [isAt, rest_before, hglyphs, Bool.eq_iff_iff]
  simp [hbare c hc.ne]

/-- Whether a character comes next depends on the first character only. -/
theorem isAt_before_congr [Bare c] (h : t.head? = s.head?) :
    (before i t).isAt c = (before i s).isAt c := by
  cases s with
  | nil => rw [List.head?_eq_none_iff.1 h]
  | cons d s =>
      obtain ⟨t, rfl⟩ := List.head?_eq_some_iff.1 h
      rw [isAt_before_cons, isAt_before_cons]

/-- Where a character comes next, the text starts with it. -/
theorem eq_cons_of_isAt [Bare c] (h : (before i s).isAt c = true) : ∃ t, s = c :: t := by
  cases s with
  | nil => cases h
  | cons d t =>
      rw [isAt_before_cons, beq_iff_eq] at h
      exact ⟨t, by rw [h]⟩

/-! ### Bodies -/

/-- An enclosed text before its closing brace is cut out as a body. -/
theorem body?_before (hs : Enclosed 0 s) :
    (before i (s ++ '}' :: t)).body? = some (⟨i, s⟩, before (i + s.length + 1) t) := by
  obtain ⟨gs, hspell, hclosing⟩ := closing_of_enclosed hs t
  have hlength : gs.length = s.length := by
    rw [← hspell, Glyph.spell, List.length_map]
  have hafter : (before i (s ++ '}' :: t)).advance (gs.length + 1) =
      before (i + s.length + 1) t := by
    rw [advance, rest_before, append_of_closing hclosing, hlength, List.drop_append]
    simp [before, hlength, Nat.add_assoc]
  rw [body?, rest_before, hclosing]
  show some (Body.mk i (Glyph.spell gs), _) = _
  rw [hspell, hafter]

/-- A body that is cut out is an enclosed text before its closing brace. -/
theorem enclosed_of_body? {body : Body} {q : Place} (h : (before i s).body? = some (body, q)) :
    ∃ t, s = body.text ++ '}' :: t ∧ Enclosed 0 body.text ∧ body.start = i ∧
      q = before (i + body.text.length + 1) t := by
  obtain ⟨⟨gs, after⟩, hclosing, _⟩ := Option.map_eq_some_iff.1 h
  obtain ⟨b, t, rfl, hb, -, -⟩ := enclosed_of_closing hclosing
  rw [body?_before hb] at h
  obtain ⟨rfl, rfl⟩ := Prod.mk.inj (Option.some.inj h)
  exact ⟨t, rfl, hb, rfl, rfl⟩

/-- No body is cut out of a text without the closing brace. -/
theorem closing_eq_none_of_body? (h : (before i s).body? = none) :
    closing 0 (glyphs .outside s) = none :=
  Option.map_eq_none_iff.1 h

end Place

/-! ### Plain text in enclosed text -/

/-- A plain text may stand in front of enclosed text. -/
theorem Plain.enclosed_append {depth : Nat} {s t : List Char} (hs : Plain s)
    (ht : Enclosed depth t) : Enclosed depth (s ++ t) := by
  induction s with
  | nil => exact ht
  | cons c s ih =>
      obtain ⟨hopen, hclose, hquote⟩ := hs c (by simp)
      exact .piece (s := [c]) (.char hopen hclose hquote)
        (ih fun d hd => hs d (List.mem_cons_of_mem _ hd))

/-- A comma may stand in front of enclosed text. -/
theorem Grammar.Enclosed.comma {depth : Nat} {s : List Char} (h : Enclosed depth s) :
    Enclosed depth (',' :: s) :=
  (plain_singleton (by decide)).enclosed_append h

/-- A plain text is enclosed. -/
theorem Plain.enclosed {s : List Char} (hs : Plain s) : Enclosed 0 s := by
  have h := hs.enclosed_append .nil
  rwa [List.append_nil] at h

/-- Without a plain text in front, an enclosed text is still enclosed. -/
theorem Plain.enclosed_of_append {depth : Nat} {s t : List Char} (hs : Plain s)
    (h : Enclosed depth (s ++ t)) : Enclosed depth t := by
  -- The rules may split the text elsewhere, so the search for the brace is compared instead.
  obtain ⟨gs, hspell, hclosing⟩ := closing_of_enclosed h []
  have hglyphs := hs.text_glyphs (t ++ ['}'])
  rw [List.append_assoc, hglyphs.glyphs_eq, closing_append_of_text hglyphs.is_text] at hclosing
  obtain ⟨⟨inner, after⟩, hinner, heq⟩ := Option.map_eq_some_iff.1 hclosing
  obtain ⟨rfl, rfl⟩ := Prod.mk.inj heq
  obtain ⟨t', rest, ht, henclosed, hspell', hafter⟩ := enclosed_of_closing hinner
  have htt : t' = t := by
    rw [← hspell']
    rw [Glyph.spell, List.map_append, ← Glyph.spell, hglyphs.spell_eq] at hspell
    exact List.append_cancel_left hspell
  rwa [htt] at henclosed

end MessageFormat
