import MessageFormat.Proofs.Pieces

/-!
# Enclosed text

What the search for a closing brace finds. `closing_of_enclosed` and `enclosed_of_closing` say that
it finds exactly the text that the grammar calls enclosed: the one up to the brace that balances
the brace opened before it. `upTo_of_closing` says that reading a format stops at the same brace.
-/

namespace MessageFormat

open Grammar

variable {depth : Nat} {gs gs' body after : List Glyph}

/-! ### Single steps -/

/-- A glyph of text neither closes a brace nor changes the number of open ones. -/
theorem Glyph.depthAfter_of_isText {g : Glyph} (h : g.isText = true) (depth : Nat) :
    g ≠ .closeBrace ∧ g.depthAfter depth = depth := by
  simp only [isText, Bool.and_eq_true, bne_iff_ne, ne_eq] at h
  exact ⟨h.2, by simp [depthAfter, h.1, h.2]⟩

/-- Glyphs of text are passed over in the search for a closing brace. -/
theorem closing_append_of_text (hgs : ∀ g ∈ gs, g.isText = true) :
    closing depth (gs ++ gs') =
      (closing depth gs').map fun (body, after) => (gs ++ body, after) := by
  induction gs with
  | nil => simp
  | cons g gs ih =>
      obtain ⟨hclose, hdepth⟩ := Glyph.depthAfter_of_isText (hgs g (by simp)) depth
      rw [List.cons_append, closing, if_neg (fun h => hclose h.1), hdepth,
        ih fun g' hg' => hgs g' (List.mem_cons_of_mem _ hg'), Option.map_map]
      rfl

/-- An opening brace is closed before the brace that is searched for. -/
theorem closing_open_brace :
    closing depth (.openBrace :: gs) =
      (closing (depth + 1) gs).map fun (body, after) => (.openBrace :: body, after) := by
  rw [closing, if_neg (by simp)]
  rfl

/-- A closing brace leaves one brace less to be closed. -/
theorem closing_close_brace :
    closing (depth + 1) (.closeBrace :: gs) =
      (closing depth gs).map fun (body, after) => (.closeBrace :: body, after) := by
  rw [closing, if_neg (by simp)]
  rfl

/-- The character is no apostrophe, so it never starts a quoted span. -/
class Bare (c : Char) : Prop where
  /-- It is no apostrophe. -/
  ne : c ≠ '\''

instance : Bare '{' := ⟨by decide⟩
instance : Bare '}' := ⟨by decide⟩
instance : Bare ',' := ⟨by decide⟩
instance : Bare ':' := ⟨by decide⟩
instance : Bare '=' := ⟨by decide⟩

/-- A character that is no apostrophe stands for itself. -/
theorem glyphs_cons {c : Char} [hc : Bare c] (s : List Char) :
    glyphs .outside (c :: s) = .bare c :: glyphs .outside s := by
  simp [glyphs, Quoting.step, Quoting.outside, hc.ne]

/-! ### The closing brace -/

/-- The search finds the brace after enclosed text. -/
theorem closing_of_enclosed {s : List Char} (h : Enclosed depth s) (t : List Char) :
    ∃ gs, Glyph.spell gs = s ∧
      closing depth (glyphs .outside (s ++ '}' :: t)) = some (gs, glyphs .outside t) := by
  induction h with
  | nil => exact ⟨[], rfl, by rw [List.nil_append, glyphs_cons]; rfl⟩
  | @opening depth s _ ih =>
      obtain ⟨gs, hspell, hclosing⟩ := ih
      refine ⟨.openBrace :: gs, by rw [← hspell]; rfl, ?_⟩
      rw [List.cons_append, glyphs_cons, closing_open_brace, hclosing]
      rfl
  | @closing depth s _ ih =>
      obtain ⟨gs, hspell, hclosing⟩ := ih
      refine ⟨.closeBrace :: gs, by rw [← hspell]; rfl, ?_⟩
      rw [List.cons_append, glyphs_cons, closing_close_brace, hclosing]
      rfl
  | @piece depth s v s' hpiece _ ih =>
      obtain ⟨gs', hspell, hclosing⟩ := ih
      have hnext : s'.head?.or (some '}') = (s' ++ '}' :: t).head? := head?_or_head? s' ('}' :: t)
      rw [hnext] at hpiece
      obtain ⟨gs, hgs⟩ := hpiece.text_glyphs
      refine ⟨gs ++ gs', ?_, ?_⟩
      · rw [← hspell, ← hgs.spell_eq, Glyph.spell, List.map_append]
        rfl
      · rw [List.append_assoc, hgs.glyphs_eq, closing_append_of_text hgs.is_text, hclosing]
        rfl

/-- Wherever the search finds a brace, the text before it is enclosed. -/
theorem enclosed_of_closing {depth : Nat} {cs : List Char} {body after : List Glyph}
    (h : closing depth (glyphs .outside cs) = some (body, after)) :
    ∃ s t, cs = s ++ '}' :: t ∧ Enclosed depth s ∧ Glyph.spell body = s ∧
      after = glyphs .outside t := by
  match cs with
  | [] => simp [glyphs, closing] at h
  | c :: rest =>
      by_cases hopen : c = '{'
      · subst hopen
        rw [glyphs_cons, closing_open_brace] at h
        obtain ⟨⟨inner, _⟩, hinner, heq⟩ := Option.map_eq_some_iff.1 h
        obtain ⟨rfl, rfl⟩ := Prod.mk.inj heq
        obtain ⟨s, t, rfl, hs, rfl, rfl⟩ := enclosed_of_closing hinner
        exact ⟨_, t, rfl, .opening hs, rfl, rfl⟩
      by_cases hclose : c = '}'
      · subst hclose
        rw [glyphs_cons] at h
        cases depth with
        | zero =>
            rw [closing, if_pos (by simp)] at h
            obtain ⟨rfl, rfl⟩ := Prod.mk.inj (Option.some.inj h)
            exact ⟨[], rest, rfl, .nil, rfl, rfl⟩
        | succ depth =>
            rw [closing_close_brace] at h
            obtain ⟨⟨inner, _⟩, hinner, heq⟩ := Option.map_eq_some_iff.1 h
            obtain ⟨rfl, rfl⟩ := Prod.mk.inj heq
            obtain ⟨s, t, rfl, hs, rfl, rfl⟩ := enclosed_of_closing hinner
            exact ⟨_, t, rfl, .closing hs, rfl, rfl⟩
      -- Neither brace comes first, so a whole piece is passed over.
      obtain ⟨s, v, cs', heq, hs, hpiece⟩ := exists_piece hopen hclose rest
      have hlt := length_lt_of_cons_eq heq hs
      obtain ⟨gs, hgs⟩ := hpiece.text_glyphs
      rw [heq, hgs.glyphs_eq, closing_append_of_text hgs.is_text] at h
      obtain ⟨⟨inner, _⟩, hinner, heq'⟩ := Option.map_eq_some_iff.1 h
      obtain ⟨rfl, rfl⟩ := Prod.mk.inj heq'
      obtain ⟨s', t, rfl, hs', hspell, rfl⟩ := enclosed_of_closing hinner
      rw [← head?_or_head?] at hpiece
      refine ⟨s ++ s', t, ?_, .piece hpiece hs', ?_, rfl⟩
      · rw [heq, List.append_assoc]
      · rw [← hspell, ← hgs.spell_eq, Glyph.spell, List.map_append]
        rfl
  termination_by cs.length

/-! ### Formats -/

/-- Without stop characters, reading stops at the brace that the search finds. -/
theorem upTo_of_closing (h : closing depth gs = some (body, after)) :
    upTo (fun _ => false) depth gs = body := by
  induction gs generalizing depth body with
  | nil => simp [closing] at h
  | cons g gs ih =>
      have hbare : g.isBare (isStop fun _ => false) = false := by
        cases g <;> rfl
      rw [closing] at h
      rw [upTo]
      split at h
      · next hclose =>
        obtain ⟨rfl, rfl⟩ := Prod.mk.inj (Option.some.inj h)
        rw [if_pos ⟨hclose.2, .inl hclose.1⟩]
      · next hclose =>
        obtain ⟨⟨inner, _⟩, hinner, heq⟩ := Option.map_eq_some_iff.1 h
        obtain ⟨rfl, rfl⟩ := Prod.mk.inj heq
        rw [if_neg, ih hinner]
        rintro ⟨hdepth, hg⟩
        rw [hbare] at hg
        exact hclose ⟨hg.resolve_right (by simp), hdepth⟩

/-- Without stop characters, reading goes to the end if the search finds no brace. -/
theorem upTo_of_closing_eq_none (h : closing depth gs = none) :
    upTo (fun _ => false) depth gs = gs := by
  induction gs generalizing depth with
  | nil => rfl
  | cons g gs ih =>
      have hbare : g.isBare (isStop fun _ => false) = false := by
        cases g <;> rfl
      rw [closing] at h
      rw [upTo]
      split at h
      · cases h
      · next hclose =>
        rw [if_neg, ih (Option.map_eq_none_iff.1 h)]
        rintro ⟨hdepth, hg⟩
        rw [hbare] at hg
        exact hclose ⟨hg.resolve_right (by simp), hdepth⟩

end MessageFormat
