import MessageFormat.Proofs.Grammar

/-!
# Text as pieces and as glyphs

The rules for text and the reading of glyphs agree. `TextRun.text_glyphs` says what a run of pieces
is read into, wherever in a message it stands, and `exists_text_run` that a run can be found in
front of every text. Nothing after this module looks at the quoting of single characters.
-/

namespace MessageFormat

open Grammar

/-- Read under the quoting `q` and before `t`, the text `s` becomes the glyphs `gs`, which are no
unquoted braces and stand for `v`; no quotation is left open. -/
structure TextGlyphs (q : Quoting) (s v t : List Char) (gs : List Glyph) : Prop where
  /-- The glyphs are those of the text, and those of what follows are read from scratch. -/
  glyphs_eq : glyphs q (s ++ t) = gs ++ glyphs .outside t
  /-- The glyphs spell the text. -/
  spell_eq : Glyph.spell gs = s
  /-- The glyphs stand for the value of the text. -/
  decode_eq : Glyph.decode gs = v
  /-- The glyphs are no unquoted braces. -/
  is_text : ∀ g ∈ gs, g.isText = true

namespace TextGlyphs

/-- Nothing is read into nothing. -/
theorem nil (t : List Char) : TextGlyphs .outside [] [] t [] :=
  ⟨rfl, rfl, rfl, by simp⟩

/-- One more character in front of a text. -/
theorem cons {q r : Quoting} {c : Char} {g : Glyph} {s v t : List Char} {gs : List Glyph}
    (hstep : q.step c (s ++ t).head? = (g, r)) (hg : g.isText = true)
    (h : TextGlyphs r s v t gs) : TextGlyphs q (c :: s) (g.value ++ v) t (g :: gs) where
  glyphs_eq := by
    rw [List.cons_append, MessageFormat.glyphs, hstep, h.glyphs_eq, List.cons_append]
  spell_eq := by
    have hchar : g.char = c := by
      have := Quoting.char_step q c (s ++ t).head?
      rwa [hstep] at this
    have hs := h.spell_eq
    rw [Glyph.spell] at hs ⊢
    rw [List.map_cons, hchar, hs]
  decode_eq := by
    have hv := h.decode_eq
    rw [Glyph.decode] at hv ⊢
    rw [List.flatMap_cons, hv]
  is_text := by
    intro g' hg'
    rcases List.mem_cons.1 hg' with rfl | hg'
    · exact hg
    · exact h.is_text g' hg'

/-- A text followed by another one. -/
theorem append {q : Quoting} {s v s' v' t : List Char} {gs gs' : List Glyph}
    (h : TextGlyphs q s v (s' ++ t) gs) (h' : TextGlyphs .outside s' v' t gs') :
    TextGlyphs q (s ++ s') (v ++ v') t (gs ++ gs') where
  glyphs_eq := by
    rw [List.append_assoc, h.glyphs_eq, h'.glyphs_eq, List.append_assoc]
  spell_eq := by
    have hs := h.spell_eq
    have hs' := h'.spell_eq
    rw [Glyph.spell] at hs hs' ⊢
    rw [List.map_append, hs, hs']
  decode_eq := by
    have hv := h.decode_eq
    have hv' := h'.decode_eq
    rw [Glyph.decode] at hv hv' ⊢
    rw [List.flatMap_append, hv, hv']
  is_text := by
    intro g hg
    rcases List.mem_append.1 hg with hg | hg
    · exact h.is_text g hg
    · exact h'.is_text g hg

/-- A text has as many glyphs as characters. -/
theorem length_eq {q : Quoting} {s v t : List Char} {gs : List Glyph}
    (h : TextGlyphs q s v t gs) : gs.length = s.length := by
  rw [← h.spell_eq, Glyph.spell, List.length_map]

end TextGlyphs

/-! ### What pieces are read into -/

/-- The inside of a quoted span is read under an open quotation and closes it. -/
theorem Grammar.Quoted.text_glyphs {s v t : List Char} (h : Quoted t.head? s v) :
    ∃ gs, TextGlyphs .opened s v t gs := by
  -- The text after the span only enters the rules through its first character.
  generalize hnext : t.head? = next at h
  induction h with
  | lone hne =>
      refine ⟨_, .cons (g := .mark) (r := .outside) ?_ rfl (.nil t)⟩
      rw [List.nil_append, hnext]
      simp [Quoting.step, Quoting.opened, hne]
  | pair _ ih =>
      obtain ⟨gs, hgs⟩ := ih
      have hsecond := hgs.cons (q := ⟨true, true⟩) (c := '\'') (g := .literal '\'') rfl rfl
      exact ⟨_, hsecond.cons (q := .opened) (c := '\'') (g := .mark) rfl rfl⟩
  | @char c s v hc _ ih =>
      obtain ⟨gs, hgs⟩ := ih
      refine ⟨_, .cons (g := .literal c) (r := .opened) ?_ ?_ hgs⟩
      · simp [Quoting.step, Quoting.opened, hc]
      · simp [Glyph.isText]
  | unclosed hnone =>
      subst hnone
      obtain rfl := List.head?_eq_none_iff.1 hnext
      exact ⟨[], rfl, rfl, rfl, by simp⟩

/-- A quotable character is no apostrophe. -/
theorem ne_apostrophe_of_is_quotable {c : Char} (h : isQuotable c = true) : c ≠ '\'' := by
  rintro rfl
  exact absurd h (by decide)

/-- A piece is read into glyphs that stand for its value. -/
theorem Grammar.TextPiece.text_glyphs {s v t : List Char} (h : TextPiece t.head? s v) :
    ∃ gs, TextGlyphs .outside s v t gs := by
  generalize hnext : t.head? = next at h
  cases h with
  | @char c hopen hclose hquote =>
      refine ⟨_, .cons (g := .bare c) (r := .outside) ?_ ?_ (.nil t)⟩
      · simp [Quoting.step, Quoting.outside, hquote]
      · simp [Glyph.isText, hopen, hclose]
  | pair =>
      have hsecond := (TextGlyphs.nil t).cons (q := ⟨false, true⟩) (c := '\'')
        (g := .literal '\'') rfl rfl
      exact ⟨_, hsecond.cons (q := .outside) (c := '\'') (g := .mark) rfl rfl⟩
  | apostrophe hne hany =>
      refine ⟨_, .cons (g := .bare '\'') (r := .outside) ?_ rfl (.nil t)⟩
      rw [List.nil_append, hnext]
      simp [Quoting.step, Quoting.outside, hne, hany]
  | @span c s v hc hquoted =>
      subst hnext
      obtain ⟨gs, hgs⟩ := hquoted.text_glyphs
      refine ⟨_, .cons (g := .mark) (r := .opened) ?_ rfl hgs⟩
      simp [Quoting.step, Quoting.outside, ne_apostrophe_of_is_quotable hc, hc]

/-- The character after a text and what follows it. -/
theorem head?_or_head? (s t : List Char) : s.head?.or t.head? = (s ++ t).head? :=
  List.head?_append.symm

/-- A run of pieces is read into glyphs that stand for its value. -/
theorem Grammar.TextRun.text_glyphs {s v t : List Char} (h : TextRun t.head? s v) :
    ∃ gs, TextGlyphs .outside s v t gs := by
  generalize hnext : t.head? = next at h
  induction h with
  | nil => exact ⟨[], .nil t⟩
  | cons hpiece _ ih =>
      subst hnext
      obtain ⟨gs', hgs'⟩ := ih
      rw [head?_or_head?] at hpiece
      obtain ⟨gs, hgs⟩ := hpiece.text_glyphs
      exact ⟨_, hgs.append hgs'⟩

/-! ### Finding pieces -/

/-- After an apostrophe that quotes, the inside of a span can be found. -/
theorem exists_quoted (cs : List Char) : ∃ s v t, cs = s ++ t ∧ Quoted t.head? s v := by
  match cs with
  | [] => exact ⟨[], [], [], rfl, .unclosed rfl⟩
  | c :: rest =>
      by_cases hc : c = '\''
      · subst hc
        -- Two apostrophes are one character of the span; a lone one closes it.
        by_cases hrest : rest.head? = some '\''
        · obtain ⟨rest, rfl⟩ := List.head?_eq_some_iff.1 hrest
          obtain ⟨s, v, t, rfl, h⟩ := exists_quoted rest
          exact ⟨_, _, t, rfl, .pair h⟩
        · exact ⟨['\''], [], rest, rfl, .lone hrest⟩
      · obtain ⟨s, v, t, rfl, h⟩ := exists_quoted rest
        exact ⟨_, _, t, rfl, .char hc h⟩

/-- A text that does not start with a brace starts with a piece. -/
theorem exists_piece {c : Char} (hopen : c ≠ '{') (hclose : c ≠ '}') (cs : List Char) :
    ∃ s v t, c :: cs = s ++ t ∧ s ≠ [] ∧ TextPiece t.head? s v := by
  by_cases hc : c = '\''
  · subst hc
    match cs with
    | [] => exact ⟨['\''], ['\''], [], rfl, by simp, .apostrophe (by simp) rfl⟩
    | d :: rest =>
        by_cases hquote : d = '\''
        · subst hquote
          exact ⟨['\'', '\''], ['\''], rest, rfl, by simp, .pair⟩
        · by_cases hd : isQuotable d = true
          · obtain ⟨s, v, t, rfl, h⟩ := exists_quoted rest
            exact ⟨'\'' :: d :: s, _, t, rfl, by simp, .span hd (.char hquote h)⟩
          · refine ⟨['\''], ['\''], d :: rest, rfl, by simp, .apostrophe ?_ ?_⟩
            · simpa using hquote
            · simpa using hd
  · exact ⟨[c], [c], cs, rfl, by simp, .char hopen hclose hc⟩

/-- What is left after a part of a text is shorter. -/
theorem length_lt_of_cons_eq {c : Char} {rest s t : List Char} (h : c :: rest = s ++ t)
    (hs : s ≠ []) : t.length < rest.length + 1 := by
  have hpos := List.length_pos_iff.2 hs
  have hlength := congrArg List.length h
  rw [List.length_cons, List.length_append] at hlength
  omega

/-- In front of every text there is a run of pieces that ends at a brace or at the end. -/
theorem exists_text_run (cs : List Char) :
    ∃ s v t, cs = s ++ t ∧ TextRun t.head? s v ∧ ∀ c ∈ t.head?, c = '{' ∨ c = '}' := by
  match cs with
  | [] => exact ⟨[], [], [], rfl, .nil, by simp⟩
  | c :: rest =>
      by_cases hbrace : c = '{' ∨ c = '}'
      · exact ⟨[], [], c :: rest, rfl, .nil, by simpa using hbrace⟩
      · rw [not_or] at hbrace
        obtain ⟨s, v, cs', heq, hs, hpiece⟩ := exists_piece hbrace.1 hbrace.2 rest
        have hlt := length_lt_of_cons_eq heq hs
        obtain ⟨s', v', t, rfl, hrun, ht⟩ := exists_text_run cs'
        refine ⟨s ++ s', v ++ v', t, by rw [heq, List.append_assoc], .cons ?_ hrun, ht⟩
        rwa [head?_or_head?]
  termination_by cs.length

end MessageFormat
