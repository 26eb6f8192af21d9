import MessageFormat.Pattern.Escape
import MessageFormat.Proofs.Pieces

/-!
# Escaped text

Which texts say themselves when they are escaped, before a placeholder or at the end of a message.
`escape` looks at one character and the next, but two apostrophes are read as one wherever they
meet. So the apostrophe that ends a run of braces is lost to an apostrophe of the text after it, and
whether the quoting comes right again depends on what follows the run of apostrophes
(`unescapes`, `says_escape_iff`). In a text in which no apostrophe follows a brace nothing is lost
(`text_run_escape`).
-/

namespace MessageFormat

open Grammar

/-- Somewhere in the text a brace is immediately followed by an apostrophe. -/
def apostropheAfterBrace : List Char → Bool
  | [] => false
  | c :: rest => (isBrace c && rest.head? == some '\'') || apostropheAfterBrace rest

/-- An apostrophe outside a run of braces is written twice before such a character. -/
def isDoubledBefore (next : Option Char) : Bool :=
  next.all fun d => d == '\'' || isQuotable d

/-- The text has no brace, and each of its apostrophes is written twice. Its written form says the
same in a quoted span as outside. -/
def fitsSpan : List Char → Bool
  | [] => true
  | c :: rest => !isBrace c && (c != '\'' || isDoubledBefore rest.head?) && fitsSpan rest

/-- A run of apostrophes right after a brace ends before `#`, before `|` or at the end of the text.
Where the text is the `last` of a message, such a run may also end before any other character but a
brace, if the rest of the text fits into the span that is left open then. `after` says that the
text follows a brace or such a run. -/
def unescapes (last after : Bool) : List Char → Bool
  | [] => true
  | c :: rest =>
    if isBrace c then unescapes last true rest
    else if c == '\'' && after then
      if isDoubledBefore rest.head? then !rest.head?.any isBrace && unescapes last true rest
      else last && fitsSpan rest
    else unescapes last false rest

variable {q r : Quoting} {s t v cs rest : List Char} {c : Char} {g : Glyph}

/-- Braces are quotable. -/
theorem isQuotable_of_isBrace (h : isBrace c = true) : isQuotable c = true := by
  simp only [isBrace, Bool.or_eq_true] at h
  rcases h with h | h <;> simp [isQuotable, h]

/-- A brace is no apostrophe. -/
theorem ne_apostrophe_of_isBrace (h : isBrace c = true) : c ≠ '\'' :=
  ne_apostrophe_of_is_quotable (isQuotable_of_isBrace h)

/-! ### Reading character by character -/

/-- Read under the quoting `q` and before `t`, the text `s` is text that stands for `v`. -/
def Says (q : Quoting) (s v t : List Char) : Prop :=
  ∃ gs, TextGlyphs q s v t gs

/-- What a text says starts with what its first character says. -/
theorem says_cons_iff (hstep : q.step c (s ++ t).head? = (g, r)) :
    Says q (c :: s) v t ↔ g.isText = true ∧ ∃ v', v = g.value ++ v' ∧ Says r s v' t := by
  constructor
  · rintro ⟨gs, hgs⟩
    cases gs with
    | nil => cases hgs.spell_eq
    | cons g' gs =>
        have hglyphs := hgs.glyphs_eq
        rw [List.cons_append, glyphs, hstep, List.cons_append, List.cons.injEq] at hglyphs
        obtain ⟨rfl, hrest⟩ := hglyphs
        refine ⟨hgs.is_text g List.mem_cons_self, Glyph.decode gs, ?_, gs, hrest, ?_, rfl, ?_⟩
        · rw [← hgs.decode_eq]
          rfl
        · have hspell := hgs.spell_eq
          rw [Glyph.spell, List.map_cons, List.cons.injEq] at hspell
          exact hspell.2
        · exact fun g' hg' => hgs.is_text g' (List.mem_cons_of_mem _ hg')
  · rintro ⟨hg, v', rfl, gs, hgs⟩
    exact ⟨g :: gs, hgs.cons hstep hg⟩

/-- Nothing says nothing, if what follows is read as outside of spans. -/
theorem says_nil_iff : Says q [] v t ↔ v = [] ∧ glyphs q t = glyphs .outside t := by
  constructor
  · rintro ⟨gs, hgs⟩
    obtain rfl : gs = [] := List.eq_nil_of_length_eq_zero hgs.length_eq
    exact ⟨hgs.decode_eq.symm, hgs.glyphs_eq⟩
  · rintro ⟨rfl, h⟩
    exact ⟨[], h, rfl, rfl, by simp⟩

/-- Two apostrophes stand for one. -/
theorem says_pair_iff (hq : q.doubled = false) :
    Says q ('\'' :: '\'' :: s) v t ↔ ∃ v', v = '\'' :: v' ∧ Says q s v' t := by
  have hfirst : q.step '\'' ('\'' :: s ++ t).head? = (.mark, ⟨q.inside, true⟩) := by
    simp [Quoting.step, hq]
  have hsecond : Quoting.step ⟨q.inside, true⟩ '\'' (s ++ t).head? = (.literal '\'', q) := by
    cases q
    cases hq
    rfl
  rw [says_cons_iff hfirst]
  simp only [says_cons_iff hsecond]
  simp [Glyph.isText, Glyph.value]

/-- In a span, a character that is no apostrophe stands for itself. -/
theorem says_literal_iff (hc : c ≠ '\'') :
    Says .opened (c :: s) v t ↔ ∃ v', v = c :: v' ∧ Says .opened s v' t := by
  have hstep : Quoting.opened.step c (s ++ t).head? = (.literal c, .opened) := by
    simp [Quoting.step, Quoting.opened, hc]
  rw [says_cons_iff hstep]
  simp [Glyph.isText, Glyph.value]

/-- Outside of spans, a character that is no apostrophe stands for itself unless it is a brace. -/
theorem says_bare_iff (hc : c ≠ '\'') :
    Says .outside (c :: s) v t ↔ isBrace c = false ∧ ∃ v', v = c :: v' ∧ Says .outside s v' t := by
  have hstep : Quoting.outside.step c (s ++ t).head? = (.bare c, .outside) := by
    simp [Quoting.step, Quoting.outside, hc]
  rw [says_cons_iff hstep]
  simp [Glyph.isText, Glyph.value, isBrace]

/-- An apostrophe that is not followed by another one closes a span. -/
theorem says_close_iff (hnext : (s ++ t).head? ≠ some '\'') :
    Says .opened ('\'' :: s) v t ↔ Says .outside s v t := by
  have hstep : Quoting.opened.step '\'' (s ++ t).head? = (.mark, .outside) := by
    simp only [Quoting.step, Quoting.opened, if_neg hnext]
    rfl
  rw [says_cons_iff hstep]
  simp [Glyph.isText, Glyph.value]

/-- An apostrophe opens a span before a quotable character. -/
theorem says_open_iff (hc : isQuotable c = true) :
    Says .outside ('\'' :: c :: s) v t ↔ Says .opened (c :: s) v t := by
  have hne := ne_apostrophe_of_is_quotable hc
  have hstep : Quoting.outside.step '\'' (c :: s ++ t).head? = (.mark, .opened) := by
    simp [Quoting.step, Quoting.outside, hne, hc]
  rw [says_cons_iff hstep]
  simp [Glyph.isText, Glyph.value]

/-- An apostrophe with nothing to quote stands for itself. -/
theorem says_apostrophe_iff (hne : (s ++ t).head? ≠ some '\'')
    (hquotable : (s ++ t).head?.any isQuotable = false) :
    Says .outside ('\'' :: s) v t ↔ ∃ v', v = '\'' :: v' ∧ Says .outside s v' t := by
  have hstep : Quoting.outside.step '\'' (s ++ t).head? = (.bare '\'', .outside) := by
    simp only [Quoting.step, Quoting.outside, if_neg hne, hquotable]
    rfl
  rw [says_cons_iff hstep]
  simp [Glyph.isText, Glyph.value]

/-! ### Written characters -/

/-- A brace is written as it is, after an apostrophe if it starts a run. -/
theorem escapeAfter_brace {run : Bool} (hc : isBrace c = true) (rest : List Char) :
    escapeAfter run (c :: rest) = runEdge (!run) ++ c :: escapeAfter true rest := by
  rw [escapeAfter, if_pos hc]

/-- A character that is not a brace ends an unfinished run and is then written as without one. -/
theorem escapeAfter_of_not_brace {run : Bool} (h : isBrace c = false) :
    escapeAfter run (c :: rest) = runEdge run ++ escapeAfter false (c :: rest) := by
  simp [escapeAfter, h, runEdge]

/-- Any other character than a brace or an apostrophe is written as it is. -/
theorem escapeAfter_char (hbrace : isBrace c = false) (hc : c ≠ '\'') (rest : List Char) :
    escapeAfter false (c :: rest) = c :: escapeAfter false rest := by
  simp [escapeAfter, hbrace, runEdge, escapeChar, hc]

/-- An apostrophe is written twice or once. -/
theorem escapeAfter_apostrophe (rest : List Char) :
    escapeAfter false ('\'' :: rest) =
      (if isDoubledBefore rest.head? then ['\'', '\''] else ['\'']) ++ escapeAfter false rest :=
  rfl

/-- What comes after an apostrophe that is written once is written as it is. -/
theorem exists_of_not_doubled (h : isDoubledBefore cs.head? = false) :
    ∃ d rest, cs = d :: rest ∧ d ≠ '\'' ∧ isQuotable d = false ∧
      escapeAfter false cs = d :: escapeAfter false rest := by
  cases cs with
  | nil => cases h
  | cons d rest =>
      simp only [isDoubledBefore, List.head?_cons, Option.all_some, Bool.or_eq_false_iff,
        beq_eq_false_iff_ne] at h
      have hbrace : isBrace d = false := by
        rw [← Bool.not_eq_true]
        intro hd
        rw [isQuotable_of_isBrace hd] at h
        exact absurd h.2 (by simp)
      exact ⟨d, rest, rfl, h.1, h.2, escapeAfter_char hbrace h.1 rest⟩

/-! ### Escaped texts -/

/-- In a span that is still open, what is written outside of runs of braces says the text only if
it is the last of the message and fits the span. -/
theorem says_in_span_iff (ht : ∀ d ∈ t.head?, isBrace d = true) :
    Says .opened (escapeAfter false cs) cs t ↔ t = [] ∧ fitsSpan cs = true := by
  induction cs with
  | nil =>
      rw [escapeAfter, runEdge, if_neg Bool.false_ne_true, says_nil_iff]
      cases t with
      | nil => simp [fitsSpan, glyphs]
      | cons d t =>
          -- The brace after the text is quoted by the span.
          have hd := ne_apostrophe_of_isBrace (ht d rfl)
          simp [glyphs, Quoting.step, Quoting.opened, Quoting.outside, hd]
  | cons c cs ih =>
      cases hbrace : isBrace c with
      | true =>
          -- The apostrophe that should open a span for the brace closes the open one.
          have hc := ne_apostrophe_of_isBrace hbrace
          rw [escapeAfter_brace hbrace]
          show Says .opened ('\'' :: c :: escapeAfter true cs) (c :: cs) t ↔ _
          rw [says_close_iff (by simpa using hc), says_bare_iff hc]
          simp [fitsSpan, hbrace]
      | false =>
          by_cases hc : c = '\''
          · subst hc
            rw [escapeAfter_apostrophe, fitsSpan]
            cases hdoubled : isDoubledBefore cs.head? with
            | true =>
                rw [if_pos rfl]
                show Says .opened ('\'' :: '\'' :: escapeAfter false cs) ('\'' :: cs) t ↔ _
                rw [says_pair_iff rfl]
                simp [ih, isBrace]
            | false =>
                obtain ⟨d, rest, rfl, hd, -, hwritten⟩ := exists_of_not_doubled hdoubled
                rw [if_neg Bool.false_ne_true, hwritten]
                show Says .opened ('\'' :: d :: escapeAfter false rest) ('\'' :: d :: rest) t ↔ _
                rw [says_close_iff (by simpa using hd), says_bare_iff hd]
                simp [hd.symm]
          · rw [escapeAfter_char hbrace hc, says_literal_iff hc]
            simp [ih, fitsSpan, hbrace, hc]

/-- An apostrophe after a run of braces makes a pair with the apostrophe that ends the run. If it is
written twice, another one is left to end the run, unless that makes a pair with the apostrophe
before a brace; if it is written once, the span is left open. -/
theorem says_after_run_iff (ht : ∀ d ∈ t.head?, isBrace d = true) :
    Says .opened (escapeAfter true ('\'' :: cs)) ('\'' :: cs) t ↔
      if isDoubledBefore cs.head? then
        cs.head?.any isBrace = false ∧ Says .opened (escapeAfter true cs) cs t
      else t = [] ∧ fitsSpan cs = true := by
  rw [escapeAfter_of_not_brace (by decide), escapeAfter_apostrophe]
  split
  · show Says .opened ('\'' :: '\'' :: '\'' :: escapeAfter false cs) ('\'' :: cs) t ↔ _
    rw [says_pair_iff rfl]
    cases cs with
    | nil => simp [escapeAfter, runEdge]
    | cons c cs =>
        cases hbrace : isBrace c with
        | true =>
            rw [escapeAfter_brace hbrace]
            show (∃ v', _ ∧ Says .opened ('\'' :: '\'' :: c :: escapeAfter true cs) v' t) ↔ _
            simp [says_pair_iff, Quoting.opened, hbrace, ne_apostrophe_of_isBrace hbrace]
        | false =>
            have hwritten : escapeAfter true (c :: cs) = '\'' :: escapeAfter false (c :: cs) :=
              escapeAfter_of_not_brace hbrace
            simp [hbrace, hwritten]
  · show Says .opened ('\'' :: '\'' :: escapeAfter false cs) ('\'' :: cs) t ↔ _
    rw [says_pair_iff rfl, ← says_in_span_iff ht]
    simp

/-- Outside of runs of braces, the written form of a character says the character. -/
theorem says_char_iff (hbrace : isBrace c = false) :
    Says .outside (escapeAfter false (c :: cs)) (c :: cs) t ↔
      Says .outside (escapeAfter false cs) cs t := by
  by_cases hc : c = '\''
  · subst hc
    rw [escapeAfter_apostrophe]
    cases hdoubled : isDoubledBefore cs.head? with
    | true =>
        rw [if_pos rfl]
        show Says .outside ('\'' :: '\'' :: escapeAfter false cs) ('\'' :: cs) t ↔ _
        rw [says_pair_iff rfl]
        simp
    | false =>
        obtain ⟨d, rest, rfl, hd, hd', hwritten⟩ := exists_of_not_doubled hdoubled
        rw [if_neg Bool.false_ne_true, hwritten]
        show Says .outside ('\'' :: d :: escapeAfter false rest) ('\'' :: d :: rest) t ↔ _
        rw [says_apostrophe_iff (by simpa using hd) (by simpa using hd')]
        simp
  · rw [escapeAfter_char hbrace hc, says_bare_iff hc]
    simp [hbrace]

/-- A run of braces is left before a character that is no apostrophe. -/
theorem says_end_of_run_iff (hbrace : isBrace c = false) (hc : c ≠ '\'') :
    Says .opened (escapeAfter true (c :: cs)) (c :: cs) t ↔
      Says .outside (escapeAfter false cs) cs t := by
  rw [escapeAfter_of_not_brace hbrace, ← says_char_iff hbrace]
  show Says .opened ('\'' :: escapeAfter false (c :: cs)) (c :: cs) t ↔ _
  refine says_close_iff ?_
  rw [escapeAfter_char hbrace hc]
  simpa using hc

/-- An escaped text says the text exactly if each run of apostrophes after a brace ends where the
quoting comes right again. Inside a run of braces, a quoted span is open. -/
theorem says_escape_iff (ht : ∀ d ∈ t.head?, isBrace d = true) :
    (Says .outside (escapeAfter false cs) cs t ↔ unescapes t.isEmpty false cs = true) ∧
      (Says .opened (escapeAfter true cs) cs t ↔ unescapes t.isEmpty true cs = true) := by
  -- Both parts are needed at once: a brace leads into a run of braces, and any other character out
  -- of it, so each part is carried on by the other one.
  induction cs with
  | nil =>
      constructor
      · rw [escapeAfter, runEdge, if_neg Bool.false_ne_true, says_nil_iff]
        simp [unescapes]
      · have hnext : ([] ++ t).head? ≠ some '\'' := fun h => absurd (ht '\'' h) (by decide)
        rw [escapeAfter, runEdge, if_pos rfl, says_close_iff hnext, says_nil_iff]
        simp [unescapes]
  | cons c cs ih =>
      obtain ⟨hrun, hspan⟩ := ih
      cases hbrace : isBrace c with
      | true =>
          have hopened : Says .opened (c :: escapeAfter true cs) (c :: cs) t ↔
              unescapes t.isEmpty true cs = true := by
            rw [says_literal_iff (ne_apostrophe_of_isBrace hbrace), ← hspan]
            simp
          rw [escapeAfter_brace hbrace, escapeAfter_brace hbrace, unescapes, if_pos hbrace,
            unescapes, if_pos hbrace]
          exact ⟨(says_open_iff (isQuotable_of_isBrace hbrace)).trans hopened, hopened⟩
      | false =>
          refine ⟨by simp [says_char_iff hbrace, hrun, unescapes, hbrace], ?_⟩
          by_cases hc : c = '\''
          · subst hc
            have hunescapes : unescapes t.isEmpty true ('\'' :: cs) =
                if isDoubledBefore cs.head? then
                  !cs.head?.any isBrace && unescapes t.isEmpty true cs
                else t.isEmpty && fitsSpan cs := rfl
            rw [says_after_run_iff ht, hspan, hunescapes]
            split <;> simp
          · simp [says_end_of_run_iff hbrace hc, hrun, unescapes, hbrace, hc]

/-! ### Runs of text -/

/-- Text is read up to the next brace. -/
theorem takeWhile_text {gs : List Glyph} (hgs : ∀ g ∈ gs, g.isText = true)
    (ht : ∀ d ∈ t.head?, isBrace d = true) :
    (gs ++ glyphs .outside t).takeWhile Glyph.isText = gs := by
  rw [List.takeWhile_append_of_pos hgs]
  cases t with
  | nil => simp [glyphs]
  | cons d t =>
      have hbrace := ht d rfl
      simp only [isBrace, Bool.or_eq_true, beq_iff_eq] at hbrace
      rcases hbrace with rfl | rfl <;> simp [glyphs, Quoting.step, Quoting.outside, Glyph.isText]

/-- Before a brace or at the end, the runs of text are what is read as text. -/
theorem text_run_iff (ht : ∀ d ∈ t.head?, isBrace d = true) :
    TextRun t.head? s v ↔ Says .outside s v t := by
  refine ⟨TextRun.text_glyphs, ?_⟩
  rintro ⟨gs, hgs⟩
  obtain ⟨s', v', t', heq, hrun, ht'⟩ := exists_text_run (s ++ t)
  obtain ⟨gs', hgs'⟩ := hrun.text_glyphs
  have hbrace : ∀ d ∈ t'.head?, isBrace d = true := by
    intro d hd
    rcases ht' d hd with rfl | rfl <;> rfl
  -- Both runs end where the glyphs are no text any more.
  obtain rfl : gs = gs' := by
    rw [← takeWhile_text hgs.is_text ht, ← hgs.glyphs_eq, heq, hgs'.glyphs_eq,
      takeWhile_text hgs'.is_text hbrace]
  obtain ⟨rfl, rfl⟩ : s = s' ∧ t = t' :=
    List.append_inj heq (by rw [← hgs.length_eq, ← hgs'.length_eq])
  obtain rfl : v = v' := by rw [← hgs.decode_eq, ← hgs'.decode_eq]
  exact hrun

/-- Where an escaped text is a run of text that stands for the text. -/
theorem text_run_escape_iff (ht : ∀ d ∈ t.head?, isBrace d = true) (text : String) :
    TextRun t.head? (escape text).toList text.toList ↔
      unescapes t.isEmpty false text.toList = true := by
  rw [text_run_iff ht, escape, String.toList_ofList]
  exact (says_escape_iff ht).1

/-- No run of apostrophes after a brace is in the way where there is none. -/
theorem unescapes_of_not_apostropheAfterBrace (last : Bool) (h : apostropheAfterBrace cs = false) :
    unescapes last false cs = true ∧
      (cs.head? ≠ some '\'' → unescapes last true cs = true) := by
  induction cs with
  | nil => exact ⟨rfl, fun _ => rfl⟩
  | cons c cs ih =>
      rw [apostropheAfterBrace, Bool.or_eq_false_iff] at h
      obtain ⟨hfalse, htrue⟩ := ih h.2
      rw [unescapes, unescapes]
      cases hbrace : isBrace c with
      | true =>
          have hhead : cs.head? ≠ some '\'' := by
            rw [hbrace, Bool.true_and] at h
            simpa using h.1
          exact ⟨htrue hhead, fun _ => htrue hhead⟩
      | false =>
          refine ⟨by simpa using hfalse, fun hhead => ?_⟩
          have hc : c ≠ '\'' := by simpa using hhead
          simpa [hc] using hfalse

/-- An escaped text stands for the text if no apostrophe of it follows a brace. -/
theorem text_run_escape (ht : ∀ d ∈ t.head?, isBrace d = true) {text : String}
    (h : apostropheAfterBrace text.toList = false) :
    TextRun t.head? (escape text).toList text.toList :=
  (text_run_escape_iff ht text).2 (unescapes_of_not_apostropheAfterBrace t.isEmpty h).1

/-- Only the empty text is written as nothing. -/
theorem toList_escape_ne_nil {text : String} (h : text ≠ "") : (escape text).toList ≠ [] := by
  have hne : text.toList ≠ [] := by simpa using h
  obtain ⟨c, rest, heq⟩ := List.exists_cons_of_ne_nil hne
  rw [escape, String.toList_ofList, heq, escapeAfter]
  split
  · simp
  · rw [escapeChar]
    split
    · split <;> simp
    · simp

end MessageFormat
