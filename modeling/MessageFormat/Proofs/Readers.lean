import MessageFormat.Pattern.Cursor
import MessageFormat.Proofs.Enclosure

/-!
# Cursors and glyphs

What a cursor reads, said with glyphs. The loops of a cursor go over the characters of a text, skip
quoted spans as they meet them and count braces on their own; the outline of a text looks at its
glyphs, where quoting has been settled before. `scanUntil_eq` and `scanBody_eq` say that each loop
finds what is found among the glyphs. In one round a loop passes over two apostrophes, a quoted span
or a single character, and there is one lemma for each on the glyphs of what it passes over.
-/

namespace MessageFormat

variable {depth : Nat} {gs gs' : List Glyph}

/-! ### Quoted glyphs -/

/-- No glyph of the run stands for an unquoted character. -/
def AllQuoted (gs : List Glyph) : Prop :=
  ∀ g ∈ gs, ∀ c, g ≠ .bare c

namespace AllQuoted

/-- An empty run has no glyph. -/
theorem nil : AllQuoted [] := by
  intro g hg
  cases hg

/-- One more quoted glyph. -/
theorem cons {g : Glyph} (hg : ∀ c, g ≠ .bare c) (h : AllQuoted gs) : AllQuoted (g :: gs) :=
  List.forall_mem_cons.2 ⟨hg, h⟩

/-- Quoted glyphs are text. -/
theorem is_text (h : AllQuoted gs) : ∀ g ∈ gs, g.isText = true := by
  intro g hg
  rw [Glyph.isText, Bool.and_eq_true, bne_iff_ne, bne_iff_ne]
  exact ⟨h g hg _, h g hg _⟩

/-- Quoted glyphs do not end a stretch. -/
theorem upTo_append (h : AllQuoted gs) (stops : Char → Bool) :
    upTo stops depth (gs ++ gs') = gs ++ upTo stops depth gs' := by
  induction gs with
  | nil => rfl
  | cons g gs ih =>
      obtain ⟨hg, hgs⟩ := List.forall_mem_cons.1 h
      obtain ⟨hclose, hdepth⟩ := Glyph.depthAfter_of_isText (h.is_text g (by simp)) depth
      have hstop : g.isBare (isStop stops) = false := by
        cases g with
        | bare c => exact absurd rfl (hg c)
        | literal c => rfl
        | mark => rfl
      rw [List.cons_append, upTo, if_neg, hdepth, ih hgs, List.cons_append]
      rw [hstop]
      rintro ⟨-, hend | hend⟩
      · exact hclose hend
      · cases hend

end AllQuoted

/-! ### Quoted spans -/

/-- The first glyphs of a text spell its first characters. -/
theorem take_of_glyphs_append {q : Quoting} {cs : List Char} (h : glyphs q cs = gs ++ gs') :
    cs.take gs.length = Glyph.spell gs := by
  have hspell := spell_glyphs q cs
  rw [h, Glyph.spell, List.map_append] at hspell
  rw [← hspell, List.take_left' (List.length_map _)]
  rfl

/-- What is read of a run of glyphs. -/
def Stretch.ofGlyphs (raw : Bool) (gs : List Glyph) : Stretch :=
  ⟨if raw then Glyph.spell gs else Glyph.decode gs, gs.length⟩

/-- What is read of two runs of glyphs, one after the other. -/
theorem Stretch.ofGlyphs_append (raw : Bool) (gs gs' : List Glyph) :
    ofGlyphs raw (gs ++ gs') = (ofGlyphs raw gs').prepend (ofGlyphs raw gs).text gs.length := by
  cases raw <;> simp [ofGlyphs, prepend, Glyph.spell, Glyph.decode, Nat.add_comm]

/-- The inside of a quoted span is read under an open quotation, and nothing is quoted after it. -/
theorem exists_glyphs_opened (cs : List Char) :
    ∃ gs, glyphs .opened cs = gs ++ glyphs .outside (cs.drop (spanInside cs).size) ∧
      spanInside cs = .ofGlyphs false gs ∧ AllQuoted gs := by
  fun_induction spanInside cs with
  | case1 => exact ⟨[], rfl, rfl, .nil⟩
  | case2 rest ih =>
      obtain ⟨gs, hgs, hread, hquoted⟩ := ih
      refine ⟨.mark :: .literal '\'' :: gs, ?_, ?_, .cons (by simp) (.cons (by simp) hquoted)⟩
      · show .mark :: .literal '\'' :: glyphs .opened rest = _
        rw [hgs]
        rfl
      · rw [hread]
        rfl
  | case3 rest hrest =>
      have hhead : rest.head? ≠ some '\'' := by
        intro hhead
        obtain ⟨rest', rfl⟩ := List.head?_eq_some_iff.1 hhead
        exact hrest rest' rfl
      have hstep : Quoting.opened.step '\'' rest.head? = (.mark, .outside) := by
        simp [Quoting.step, Quoting.opened, hhead]
      refine ⟨[.mark], ?_, rfl, .cons (by simp) .nil⟩
      rw [glyphs, hstep]
      rfl
  | case4 c rest _ hc ih =>
      obtain ⟨gs, hgs, hread, hquoted⟩ := ih
      have hstep : Quoting.opened.step c rest.head? = (.literal c, .opened) := by
        rw [Quoting.step, if_neg (by decide), if_neg hc]
        rfl
      refine ⟨.literal c :: gs, ?_, ?_, .cons (by simp) hquoted⟩
      · rw [glyphs, hstep, hgs]
        rfl
      · rw [hread]
        rfl

/-- A quoted span in front of a text is read into quoted glyphs, with which the quotation ends. -/
theorem exists_glyphs_span {cs : List Char} (h : startsSpan cs = true) (raw : Bool) :
    ∃ gs, glyphs .outside cs = gs ++ glyphs .outside (cs.drop gs.length) ∧
      readSpan raw cs = .ofGlyphs raw gs ∧ AllQuoted gs := by
  match cs with
  | [] => cases h
  | c :: rest =>
      simp only [startsSpan, List.head?_cons, List.tail_cons, Bool.and_eq_true, beq_iff_eq,
        Option.some.injEq] at h
      obtain ⟨rfl, hrest⟩ := h
      obtain ⟨gs, hgs, hread, hquoted⟩ := exists_glyphs_opened rest
      have hsize : (spanInside rest).size = gs.length := by
        rw [hread]
        rfl
      have hhead : rest.head? ≠ some '\'' := by
        intro hhead
        rw [hhead] at hrest
        cases hrest
      have hstep : Quoting.outside.step '\'' rest.head? = (.mark, .opened) := by
        simp [Quoting.step, Quoting.outside, hhead, hrest]
      refine ⟨.mark :: gs, ?_, ?_, .cons (by simp) hquoted⟩
      · rw [glyphs, hstep, hgs, hsize]
        rfl
      · cases raw with
        | false =>
          rw [readSpan, List.tail_cons, hread]
          rfl
        | true =>
          rw [readSpan, List.tail_cons, hsize, if_pos rfl, List.take_succ_cons,
            take_of_glyphs_append hgs]
          rfl

/-- A text that starts with two apostrophes. -/
theorem exists_of_startsPair {cs : List Char} (h : startsPair cs = true) :
    ∃ rest, cs = '\'' :: '\'' :: rest := by
  match cs with
  | [] => cases h
  | [c] => simp [startsPair] at h
  | c :: d :: rest =>
      simp only [startsPair, List.head?_cons, List.tail_cons, Bool.and_eq_true, beq_iff_eq,
        Option.some.injEq] at h
      exact ⟨rest, by rw [h.1, h.2]⟩

/-- Of two apostrophes the first quotes the second. -/
theorem glyphs_pair (rest : List Char) :
    glyphs .outside ('\'' :: '\'' :: rest) = [.mark, .literal '\''] ++ glyphs .outside rest :=
  rfl

/-- The glyphs of two apostrophes are quoted. -/
theorem quoted_pair : AllQuoted [.mark, .literal '\''] :=
  .cons (by simp) (.cons (by simp) .nil)

/-- A character with which no quotation starts stands for itself. -/
theorem glyphs_bare {c : Char} {rest : List Char} (hpair : ¬ startsPair (c :: rest) = true)
    (hspan : ¬ startsSpan (c :: rest) = true) :
    glyphs .outside (c :: rest) = .bare c :: glyphs .outside rest := by
  simp only [startsPair, startsSpan, List.head?_cons, List.tail_cons, Bool.and_eq_true, beq_iff_eq,
    Option.some.injEq, not_and] at hpair hspan
  have hstep : Quoting.outside.step c rest.head? = (.bare c, .outside) := by
    by_cases hc : c = '\''
    · simp [Quoting.step, Quoting.outside, hc, hpair hc, hspan hc]
    · simp [Quoting.step, Quoting.outside, hc]
  rw [glyphs, hstep]

/-! ### Stretches -/

/-- A stretch ends before an unquoted character if this closes too much or stops it. -/
theorem upTo_bare (stops : Char → Bool) (depth : Nat) (c : Char) (gs : List Glyph) :
    upTo stops depth (.bare c :: gs) =
      if depth = 0 ∧ (c = '}' ∨ isStop stops c = true) then []
      else .bare c :: upTo stops ((Glyph.bare c).depthAfter depth) gs := by
  rw [upTo]
  simp [Glyph.isBare]

/-- What is read of an unquoted character and of more. -/
theorem Stretch.ofGlyphs_bare (raw : Bool) (c : Char) (gs : List Glyph) :
    ofGlyphs raw (.bare c :: gs) = (ofGlyphs raw gs).prepend [c] 1 := by
  cases raw <;> rfl

/-- A cursor reads the stretch that is found among the glyphs. -/
theorem scanUntil_eq (stops : Char → Bool) (raw : Bool) (depth : Nat) (cs : List Char) :
    scanUntil stops raw depth cs = .ofGlyphs raw (upTo stops depth (glyphs .outside cs)) := by
  -- One case for each way in which a round can go: after two apostrophes and a quoted span come an
  -- opening brace, the closing brace that ends the stretch and another one, a stop character, and
  -- any other character.
  fun_induction scanUntil stops raw depth cs with
  | case1 => cases raw <;> rfl
  | case2 depth c rest hpair ih =>
      obtain ⟨rest', heq⟩ := exists_of_startsPair hpair
      rw [heq] at ih ⊢
      rw [glyphs_pair, quoted_pair.upTo_append, Stretch.ofGlyphs_append, ih]
      cases raw <;> rfl
  | case3 depth c rest hpair hspan span hpos ih =>
      obtain ⟨gs, hgs, hread, hquoted⟩ := exists_glyphs_span hspan raw
      have hsize : span = .ofGlyphs raw gs := hread
      rw [hgs, hquoted.upTo_append, Stretch.ofGlyphs_append, ih, hsize]
      rfl
  | case4 depth rest hpair hspan ih =>
      rw [glyphs_bare hpair hspan, upTo_bare, if_neg (by simp [isStop]), Stretch.ofGlyphs_bare, ih]
      rfl
  | case5 rest hpair hspan hopen =>
      rw [glyphs_bare hpair hspan, upTo_bare, if_pos ⟨rfl, .inl rfl⟩]
      cases raw <;> rfl
  | case6 depth rest hdepth hpair hspan hopen ih =>
      rw [glyphs_bare hpair hspan, upTo_bare, if_neg fun h => hdepth h.1, Stretch.ofGlyphs_bare, ih]
      rfl
  | case7 depth c rest hpair hspan hopen hclose hstop =>
      have hisStop : isStop stops c = true := by
        simp [isStop, hstop, hopen, hclose]
      rw [glyphs_bare hpair hspan, upTo_bare, if_pos ⟨hstop.2.1, .inr hisStop⟩]
      cases raw <;> rfl
  | case8 depth c rest hpair hspan hopen hclose hstop ih =>
      have hend : ¬ (depth = 0 ∧ (c = '}' ∨ isStop stops c = true)) := by
        rintro ⟨hdepth, hc | hisStop⟩
        · exact hclose hc
        · simp only [isStop, Bool.and_eq_true, bne_iff_ne] at hisStop
          exact hstop ⟨hisStop.2, hdepth, hisStop.1.1.1⟩
      have hdepth : (Glyph.bare c).depthAfter depth = depth := by
        simp [Glyph.depthAfter, hopen, hclose]
      rw [glyphs_bare hpair hspan, upTo_bare, if_neg hend, Stretch.ofGlyphs_bare, hdepth, ih]

/-! ### Bodies -/

/-- The body before a closing brace is longer by the text in front of it. -/
theorem closing_length_append (hgs : ∀ g ∈ gs, g.isText = true) :
    (closing depth (gs ++ gs')).map (·.1.length) =
      ((closing depth gs').map (·.1.length)).map (· + gs.length) := by
  rw [closing_append_of_text hgs, Option.map_map, Option.map_map]
  congr 1
  funext ⟨body, after⟩
  simp [Nat.add_comm]

/-- The body before a closing brace is longer by each glyph that is not this brace. -/
theorem closing_length_cons {g : Glyph} (hg : ¬ (g = .closeBrace ∧ depth = 0)) :
    (closing depth (g :: gs)).map (·.1.length) =
      ((closing (g.depthAfter depth) gs).map (·.1.length)).map (· + 1) := by
  rw [closing, if_neg hg, Option.map_map, Option.map_map]
  rfl

/-- A cursor finds the brace that is found among the glyphs. The loop counts one brace more, the one
that was opened before the body. -/
theorem scanBody_eq (hdepth : 0 < depth) (cs : List Char) :
    scanBody depth cs = (closing (depth - 1) (glyphs .outside cs)).map (·.1.length) := by
  fun_induction scanBody depth cs with
  | case1 => rfl
  | case2 depth c rest hpair ih =>
      obtain ⟨rest', heq⟩ := exists_of_startsPair hpair
      rw [heq] at ih ⊢
      rw [ih hdepth, glyphs_pair, closing_length_append quoted_pair.is_text]
      rfl
  | case3 depth c rest hpair hspan span hpos ih =>
      obtain ⟨gs, hgs, hread, hquoted⟩ := exists_glyphs_span hspan true
      have hsize : span = .ofGlyphs true gs := hread
      rw [hgs, ih hdepth, hsize, closing_length_append hquoted.is_text]
      rfl
  | case4 depth rest hpair hspan ih =>
      have hcount : depth + 1 - 1 = depth - 1 + 1 := by omega
      rw [glyphs_bare hpair hspan, closing_length_cons (by simp), ih (Nat.succ_pos _), hcount]
      rfl
  | case5 rest hpair hspan hopen =>
      rw [glyphs_bare hpair hspan]
      rfl
  | case6 depth rest hone hpair hspan hopen ih =>
      rw [glyphs_bare hpair hspan, closing_length_cons (by omega), ih (by omega)]
      rfl
  | case7 depth c rest hpair hspan hopen hclose ih =>
      have hcount : (Glyph.bare c).depthAfter (depth - 1) = depth - 1 := by
        simp [Glyph.depthAfter, hopen, hclose]
      rw [glyphs_bare hpair hspan, closing_length_cons (by simp [hclose]), hcount, ih hdepth]

namespace Cursor

/-- The part of a text that starts at the cursor. -/
theorem slice_rest (c : Cursor) (n : Nat) :
    c.slice c.position (c.position + n) = String.ofList (c.rest.take n) := by
  rw [slice, rest, List.drop_take, Nat.add_sub_cancel_left]

/-- A body is cut out at the brace that is found among the glyphs. -/
theorem readBalanced_of_closing {c : Cursor} {body after : List Glyph}
    (h : closing 0 (glyphs .outside c.rest) = some (body, after)) :
    c.readBalanced = (some (String.ofList (Glyph.spell body)), c.advance (body.length + 1)) := by
  have hbody : scanBody 1 c.rest = some body.length := by
    rw [scanBody_eq Nat.one_pos, h]
    rfl
  rw [readBalanced, hbody]
  show (some (c.slice c.position (c.position + body.length)), _) = _
  rw [slice_rest, take_of_glyphs_append (append_of_closing h)]

/-- No body is cut out where no brace is found. -/
theorem readBalanced_of_closing_eq_none {c : Cursor}
    (h : closing 0 (glyphs .outside c.rest) = none) :
    c.readBalanced = (none, c.advance c.rest.length) := by
  have hbody : scanBody 1 c.rest = none := by
    rw [scanBody_eq Nat.one_pos, h]
    rfl
  rw [readBalanced, hbody]

end Cursor

end MessageFormat
