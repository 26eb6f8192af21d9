import MessageFormat.Proofs.Scanning

/-!
# The ends of texts

What the end of a text means for what is put after it. Only a quoted span that is still open, or an
apostrophe at the very end that is neither doubled nor quoted, reaches into the text that follows. A
balanced text is therefore enclosed exactly if it ends in neither (`Balanced.enclosed_iff`). Blanks
at the end keep such an apostrophe apart from the closing brace, and it is all that can go wrong when
they are cut off (`Grammar.Enclosed.iff_of_append_blank`).
-/

namespace MessageFormat

open Grammar

variable {q : Quoting} {s t w : List Char} {depth : Nat}

/-! ### Texts in a row -/

/-- A character plays the same part before any other than an apostrophe as at the end of the text,
unless it is an apostrophe by itself and could quote the other. -/
theorem Quoting.step_eq_step_none {c : Char} {next : Option Char} (hnext : next ≠ some '\'')
    (hbare : (q.step c none).1 = .bare '\'' → next.any isQuotable = false) :
    q.step c next = q.step c none := by
  by_cases hc : c = '\''
  · subst hc
    cases hdoubled : q.doubled <;> cases hinside : q.inside <;>
      simp_all [step]
  · simp [step, hc]

/-- A text is read in the same way in front of another one, which is read under the quoting after
it, unless an apostrophe at its end meets an apostrophe or something to quote. -/
theorem glyphs_append (hnext : t.head? ≠ some '\'')
    (hbare : (glyphs q s).getLast? = some (.bare '\'') → t.head?.any isQuotable = false) :
    glyphs q (s ++ t) = glyphs q s ++ glyphs (quotingAfter q s) t ∧
      quotingAfter q (s ++ t) = quotingAfter (quotingAfter q s) t := by
  induction s generalizing q with
  | nil => exact ⟨rfl, rfl⟩
  | cons c s ih =>
      cases s with
      | nil =>
          have hstep : q.step c t.head? = q.step c none :=
            Quoting.step_eq_step_none hnext fun h => hbare (by simpa [glyphs] using h)
          simp [glyphs, quotingAfter, hstep]
      | cons d s =>
          obtain ⟨hglyphs, hquoting⟩ := ih (q := (q.step c (some d)).2) fun h =>
            hbare (by simpa [glyphs] using h)
          exact ⟨congrArg (_ :: ·) hglyphs, hquoting⟩

/-- At the end of a text no apostrophe waits for its second. -/
theorem doubled_quotingAfter (h : s ≠ [] ∨ q.doubled = false) :
    (quotingAfter q s).doubled = false := by
  induction s generalizing q with
  | nil => simpa [quotingAfter] using h
  | cons c s ih =>
      rw [quotingAfter]
      cases s with
      | cons d s => exact ih (.inl (List.cons_ne_nil d s))
      | nil =>
          refine ih (.inr ?_)
          rw [List.head?_nil, Quoting.step]
          split
          · rfl
          · next hdoubled =>
            rw [Bool.not_eq_true] at hdoubled
            repeat' split
            all_goals first | rfl | exact hdoubled | contradiction

/-! ### Before a closing brace -/

/-- An apostrophe by itself quotes the closing brace after it. -/
theorem Quoting.step_of_bare_apostrophe {c : Char} (h : (q.step c none).1 = .bare '\'') :
    q.step c (some '}') = (.mark, .opened) := by
  obtain rfl : c = '\'' := by
    have hchar := char_step q c none
    rw [h] at hchar
    exact hchar.symm
  cases hdoubled : q.doubled <;> cases hinside : q.inside <;>
    simp_all [step, isQuotable]

/-- After an apostrophe by itself a closing brace closes nothing. -/
theorem openAfter_append_close (h : (glyphs q s).getLast? = some (.bare '\'')) :
    openAfter depth (glyphs q (s ++ ['}'])) = openAfter depth (glyphs q s) := by
  induction s generalizing q depth with
  | nil => cases h
  | cons c s ih =>
      cases s with
      | nil =>
          have hbare : (q.step c none).1 = .bare '\'' := by simpa [glyphs] using h
          have hstep := Quoting.step_of_bare_apostrophe hbare
          simp only [List.cons_append, List.nil_append, glyphs, List.head?_cons, List.head?_nil,
            hstep, hbare]
          simp [openAfter, Glyph.depthAfter, Quoting.step, Quoting.opened]
      | cons d s =>
          have hrest : (glyphs (q.step c (some d)).2 (d :: s)).getLast? = some (.bare '\'') := by
            simpa [glyphs] using h
          rw [List.cons_append, glyphs, openAfter, glyphs, openAfter]
          exact ite_congr rfl (fun _ => rfl) fun _ => ih hrest

/-- A closing brace that an apostrophe or an open span quotes closes nothing. -/
theorem openAfter_append_quoted_close
    (h : (quotingAfter .outside s).inside = true ∨
      (glyphs .outside s).getLast? = some (.bare '\'')) :
    openAfter depth (glyphs .outside (s ++ ['}'])) = openAfter depth (glyphs .outside s) := by
  by_cases hbare : (glyphs .outside s).getLast? = some (.bare '\'')
  · exact openAfter_append_close hbare
  · have hinside := h.resolve_right hbare
    have hdoubled : (quotingAfter .outside s).doubled = false := doubled_quotingAfter (.inr rfl)
    have hclose : glyphs (quotingAfter .outside s) ['}'] = [.literal '}'] := by
      simp [glyphs, Quoting.step, hinside, hdoubled]
    rw [(glyphs_append (by simp) fun h => absurd h hbare).1, hclose, openAfter_append]
    cases openAfter depth (glyphs .outside s) <;> rfl

/-! ### Enclosed texts are balanced -/

/-- A piece is also a piece at the end of a text, whatever follows it. -/
theorem Grammar.TextPiece.at_end {next : Option Char} {v : List Char} (h : TextPiece next s v) :
    TextPiece none s v := by
  have hquoted : ∀ {s v}, Quoted next s v → Quoted none s v := by
    intro s v h
    induction h with
    | lone => exact .lone (by simp)
    | pair _ ih => exact .pair ih
    | char hc _ ih => exact .char hc ih
    | unclosed => exact .unclosed rfl
  cases h with
  | char hopen hclose hquote => exact .char hopen hclose hquote
  | pair => exact .pair
  | apostrophe => exact .apostrophe (by simp) rfl
  | span hc h => exact .span hc (hquoted h)

/-- The scan of an enclosed text closes all that was open. -/
theorem openAfter_of_enclosed {k : Nat} (h : Enclosed k s) :
    openAfter k (glyphs .outside s) = some 0 := by
  induction h with
  | nil => rfl
  | opening _ ih => rw [openAfter_open_brace, ih]
  | closing _ ih => rw [openAfter_close_brace, ih]
  | @piece k s v t hpiece _ ih =>
      have hpiece' : TextPiece t.head? s v := by
        cases t with
        | nil => exact hpiece.at_end
        | cons c t => exact hpiece
      obtain ⟨gs, hgs⟩ := hpiece'.text_glyphs
      rw [hgs.glyphs_eq, openAfter_append_of_text hgs.is_text, ih]

/-- A body is balanced. -/
theorem Grammar.Enclosed.balanced (h : Enclosed 0 s) : Balanced s :=
  balanced_iff.2 (openAfter_of_enclosed h)

/-- When a run of glyphs leaves no brace open, the search finds the brace after it. -/
theorem closing_of_openAfter {gs : List Glyph} (h : openAfter depth gs = some 0)
    (after : List Glyph) : closing depth (gs ++ .closeBrace :: after) = some (gs, after) := by
  induction gs generalizing depth with
  | nil =>
      obtain rfl := Option.some.inj h
      rfl
  | cons g gs ih =>
      rw [openAfter] at h
      split at h
      · cases h
      · next hclose => rw [List.cons_append, closing, if_neg hclose, ih h, Option.map_some]

/-- A balanced text is enclosed exactly if it leaves nothing quoted after it. -/
theorem Balanced.enclosed_iff (h : Balanced s) :
    Enclosed 0 s ↔ (quotingAfter .outside s).inside = false ∧
      (glyphs .outside s).getLast? ≠ some (.bare '\'') := by
  rw [balanced_iff] at h
  constructor
  · intro henclosed
    have hopen : openAfter 1 (glyphs .outside s) = some 1 := openAfter_add h 1
    have hclosed := openAfter_enclosed henclosed 0 []
    -- A quoted brace would leave the one open that the brace after enclosed text closes.
    have hunquoted : ¬ ((quotingAfter .outside s).inside = true ∨
        (glyphs .outside s).getLast? = some (.bare '\'')) := by
      intro hquoted
      rw [openAfter_append_quoted_close hquoted, hopen] at hclosed
      cases hclosed
    rwa [not_or, Bool.not_eq_true] at hunquoted
  · rintro ⟨hclosed, hunpaired⟩
    have hdoubled : (quotingAfter .outside s).doubled = false := doubled_quotingAfter (.inr rfl)
    have hglyphs : glyphs .outside (s ++ ['}']) = glyphs .outside s ++ [.closeBrace] := by
      rw [(glyphs_append (by simp) fun hbare => absurd hbare hunpaired).1]
      simp [glyphs, Quoting.step, hclosed, hdoubled]
    have hclosing := closing_of_openAfter h []
    rw [← hglyphs] at hclosing
    obtain ⟨s', t, -, henclosed, hspell, -⟩ := enclosed_of_closing hclosing
    rw [spell_glyphs] at hspell
    rwa [hspell]

/-! ### Blanks at the end -/

/-- Blanks are neither apostrophes nor anything to quote. -/
theorem Grammar.Blank.head? (hw : Blank w) :
    w.head? ≠ some '\'' ∧ w.head?.any isQuotable = false := by
  cases w with
  | nil => exact ⟨by simp, rfl⟩
  | cons d w =>
      have hd := hw d List.mem_cons_self
      constructor
      · intro hquote
        obtain rfl := Option.some.inj hquote
        exact absurd hd (by decide)
      · rw [List.head?_cons, Option.any_some, ← Bool.not_eq_true]
        intro hquotable
        simp only [isQuotable, Bool.or_eq_true, beq_iff_eq] at hquotable
        rcases hquotable with ((rfl | rfl) | rfl) | rfl
        all_goals exact absurd hd (by decide)

/-- Blanks open and close nothing, quoted or not. -/
theorem openAfter_blank (hw : Blank w) : openAfter depth (glyphs q w) = some depth := by
  have htext : ∀ g ∈ glyphs q w, g.isText = true := by
    intro g hg
    have hmem : g.char ∈ w := by
      rw [← spell_glyphs q w]
      exact List.mem_map_of_mem hg
    cases g with
    | bare c =>
        obtain ⟨hopen, hclose, -⟩ := hw.plain c hmem
        simp [Glyph.isText, hopen, hclose]
    | literal c => rfl
    | mark => rfl
  have hscan : openAfter depth (glyphs q w ++ []) = openAfter depth [] :=
    openAfter_append_of_text htext
  rwa [List.append_nil] at hscan

/-- Blanks leave a quoted span open or closed. -/
theorem inside_quotingAfter_blank (hw : Blank w) : (quotingAfter q w).inside = q.inside := by
  induction w generalizing q with
  | nil => rfl
  | cons d w ih =>
      have hquote : d ≠ '\'' := (hw.plain d List.mem_cons_self).2.2
      rw [quotingAfter, ih fun c hc => hw c (List.mem_cons_of_mem d hc), Quoting.step,
        if_neg hquote]
      repeat' split
      all_goals rfl

/-- Without blanks at its end, enclosed text is still balanced and leaves no span open. -/
theorem Grammar.Enclosed.balanced_of_append_blank (h : Enclosed 0 (s ++ w)) (hw : Blank w) :
    Balanced s ∧ (quotingAfter .outside s).inside = false := by
  obtain ⟨hglyphs, hquoting⟩ := glyphs_append (q := .outside) (s := s) hw.head?.1 fun _ => hw.head?.2
  constructor
  · have hscan := openAfter_of_enclosed h
    rw [hglyphs, openAfter_append] at hscan
    obtain ⟨n, hn, hblank⟩ := Option.bind_eq_some_iff.1 hscan
    rw [openAfter_blank hw] at hblank
    rw [balanced_iff, hn, hblank]
  · have hinside := (h.balanced.enclosed_iff.1 h).1
    rwa [hquoting, inside_quotingAfter_blank hw] at hinside

/-- Without blanks at its end, enclosed text is still enclosed exactly if it does not end in an
apostrophe by itself. -/
theorem Grammar.Enclosed.iff_of_append_blank (h : Enclosed 0 (s ++ w)) (hw : Blank w) :
    Enclosed 0 s ↔ (glyphs .outside s).getLast? ≠ some (.bare '\'') := by
  obtain ⟨hbalanced, hclosed⟩ := h.balanced_of_append_blank hw
  rw [hbalanced.enclosed_iff, and_iff_right hclosed]

end MessageFormat
