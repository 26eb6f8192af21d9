import MessageFormat.Proofs.Constructs
import MessageFormat.Proofs.Trimming

/-!
# Reading placeholders

Placeholders are read as the grammar has them: `readPlaceholder_of_rule` says that every placeholder
of the grammar is read, whatever follows it, and `rule_of_readPlaceholder` that nothing else is.
-/

namespace MessageFormat

open Grammar Place

variable {i : Nat} {s t cs : List Char}

/-! ### Arguments -/

/-- An argument with a type ends at its closing brace. -/
theorem readTyped_close {name type : List Char} :
    readTyped name type (before i ('}' :: t)) =
      .ok (.argument (String.ofList name) (some (String.ofList type)) none,
        before (i + 1) t) := by
  rw [readTyped]
  simp only [isAt_before_cons, advance_before_cons]
  simp

/-- A format is read up to the brace that closes the argument. -/
theorem readTyped_of_enclosed {name type format : List Char} (h : Enclosed 0 format) :
    readTyped name type (before i (',' :: format ++ '}' :: t)) =
      .ok (.argument (String.ofList name) (some (String.ofList type)) (style? format),
        before (i + format.length + 2) t) := by
  obtain ⟨w, body, rfl, hw, hbody⟩ := exists_blank_run format
  have hblank : ∀ c ∈ (body ++ '}' :: t).head?, Text.isBlank c = false := by
    cases body with
    | nil => simp; decide
    | cons c body => simpa using hbody
  -- The reader skips blanks before it looks for the brace, so the format is read without them.
  have henclosed := hw.plain.enclosed_of_append h
  obtain ⟨gs, hspell, hclosing⟩ := closing_of_enclosed henclosed t
  have hlength : gs.length = body.length := by
    rw [← hspell, Glyph.spell, List.length_map]
  have hafter : (before (i + 1 + w.length) (body ++ '}' :: t)).advance gs.length =
      before (i + 1 + w.length + body.length) ('}' :: t) := by
    rw [hlength]
    refine advance_before_of_glyphs ?_ hlength
    rw [append_of_closing hclosing, glyphs_cons]
  have hread : upTo (fun _ => false) 0 (before (i + 1 + w.length) (body ++ '}' :: t)).rest = gs :=
    upTo_of_closing hclosing
  rw [readTyped, List.cons_append, isAt_before_cons, if_pos (by decide),
    advance_before_cons, List.append_assoc, skipBlanks_before hw hblank]
  simp only [hread, hafter, hspell]
  rw [if_neg (by simp), advance_before_cons, style?, strip_blank_append hw]
  refine ok_before_congr _ ?_ t
  simp only [List.length_append]
  omega

/-- An argument that is read ends after its type or after an enclosed format. -/
theorem format_of_readTyped {name type : List Char} {content : Content} {q : Place}
    (h : readTyped name type (before i cs) = .ok (content, q)) :
    (∃ t, cs = '}' :: t) ∨ ∃ format t, cs = ',' :: format ++ '}' :: t ∧ Enclosed 0 format := by
  rw [readTyped] at h
  dsimp only at h
  split at h
  · next hcomma =>
    obtain ⟨rest, rfl⟩ := eq_cons_of_isAt hcomma
    obtain ⟨w, rest, rfl, hw, hrest⟩ := exists_blank_run rest
    rw [advance_before_cons, skipBlanks_before hw hrest] at h
    cases hclosing : closing 0 (glyphs .outside rest) with
    | none =>
        have hread := upTo_of_closing_eq_none hclosing
        rw [rest_before, hread, advance, rest_before, List.drop_length, if_pos rfl] at h
        cases h
    | some found =>
        obtain ⟨body, t, rfl, hbody, -, -⟩ := enclosed_of_closing hclosing
        exact .inr ⟨w ++ body, t, by simp, hw.plain.enclosed_append hbody⟩
  · split at h
    · cases h
    · split at h
      · next hclose =>
        obtain ⟨t, rfl⟩ := eq_cons_of_isAt hclose
        exact .inl ⟨t, rfl⟩
      · cases h

/-! ### Kinds -/

/-- Variants may be preceded by blanks, which the reader of the word before them skips. -/
theorem Grammar.Variants.exists_blank_append {offset : Option Int} {variants : List Branch}
    (h : Variants s offset variants) :
    ∃ w s', s = w ++ s' ∧ Blank w ∧ Variants s' offset variants ∧
      ∀ t, ∀ c ∈ (s' ++ '}' :: t).head?, Text.isBlank c = false := by
  cases h with
  | plain h =>
      obtain ⟨w, s', rfl, hw, hlist, hhead⟩ := h.exists_blank_append
      exact ⟨w, s', rfl, hw, .plain hlist, hhead⟩
  | comma h => exact ⟨[], _, rfl, .nil, .comma h, fun _ => forall_head?_cons rfl⟩
  | offset hw₁ hw₂ hw₃ hname hnumber h =>
      exact ⟨[], _, rfl, .nil, .offset hw₁ hw₂ hw₃ hname hnumber h,
        fun _ => forall_head?_cons rfl⟩

/-- Options may be preceded by blanks, which the reader of the word before them skips. -/
theorem Grammar.Choices.exists_blank_append {options : List Branch} (h : Choices s options) :
    ∃ w s', s = w ++ s' ∧ Blank w ∧ Choices s' options ∧
      ∀ t, ∀ c ∈ (s' ++ '}' :: t).head?, Text.isBlank c = false := by
  cases h with
  | plain h =>
      obtain ⟨w, s', rfl, hw, hlist, hhead⟩ := h.exists_blank_append
      exact ⟨w, s', rfl, hw, .plain hlist, hhead⟩
  | comma h => exact ⟨[], _, rfl, .nil, .comma h, fun _ => forall_head?_cons rfl⟩

/-- The word after the comma decides how the placeholder is read on. -/
theorem readKind_before (name : List Char) {w₁ word w₂ : List Char} (hw₁ : Blank w₁)
    (hword : Name word (w₂ ++ t)) (hw₂ : Blank w₂) (ht : ∀ c ∈ t.head?, Text.isBlank c = false) :
    readKind name (before i (w₁ ++ (word ++ (w₂ ++ t)))) =
      let after := before (i + w₁.length + word.length + w₂.length) t
      if word = "plural".toList then readPlural (.plural (String.ofList name)) after
      else if word = "selectordinal".toList then
        readPlural (fun _ => .ordinal (String.ofList name)) after
      else if word = "select".toList then readSelect name after
      else .ofExcept (readTyped name word after) := by
  rw [readKind]
  simp only [skipBlanks_before hw₁ (hword.isBlank_head (w₂ ++ t)),
    name_before hword.chars hword.maximal, advance_before hword.plain, skipBlanks_before hw₂ ht,
    hword.ne_nil, if_false]

/-- Either there is no word, which is a fault, or there is one with blanks around it. -/
theorem readKind_cases (name : List Char) (i : Nat) (cs : List Char) :
    (∃ position, readKind name (before i cs) = .ofExcept (.error ⟨.missingType, position⟩)) ∨
      ∃ w₁ word w₂ rest, cs = w₁ ++ (word ++ (w₂ ++ rest)) ∧ Blank w₁ ∧ Name word (w₂ ++ rest) ∧
        Blank w₂ ∧ ∀ c ∈ rest.head?, Text.isBlank c = false := by
  obtain ⟨w₁, rest, rfl, hw₁, hrest₁⟩ := exists_blank_run cs
  obtain ⟨word, rest, rfl, hword, hrest₂⟩ := exists_class_run isNameChar rest
  obtain ⟨w₂, rest, rfl, hw₂, hrest₃⟩ := exists_blank_run rest
  by_cases hne : word = []
  · subst hne
    refine .inl ?_
    rw [readKind]
    simp only [skipBlanks_before hw₁ hrest₁, name_before hword hrest₂]
    exact ⟨_, rfl⟩
  · exact .inr ⟨w₁, word, w₂, rest, rfl, hw₁, ⟨hne, hword, hrest₂⟩, hw₂, hrest₃⟩

/-- The word is followed by blanks of its own and by those that start its construct. -/
theorem readKind_before_close (name : List Char) {w₁ word w₂ w : List Char} (hw₁ : Blank w₁)
    (hword : Name word (w₂ ++ (w ++ s))) (hw₂ : Blank w₂) (hw : Blank w)
    (hs : ∀ c ∈ (s ++ '}' :: t).head?, Text.isBlank c = false) :
    readKind name (before i (w₁ ++ word ++ w₂ ++ (w ++ s) ++ '}' :: t)) =
      let after := before (i + w₁.length + word.length + (w₂ ++ w).length) (s ++ '}' :: t)
      if word = "plural".toList then readPlural (.plural (String.ofList name)) after
      else if word = "selectordinal".toList then
        readPlural (fun _ => .ordinal (String.ofList name)) after
      else if word = "select".toList then readSelect name after
      else .ofExcept (readTyped name word after) := by
  have htext : w₁ ++ word ++ w₂ ++ (w ++ s) ++ '}' :: t =
      w₁ ++ (word ++ ((w₂ ++ w) ++ (s ++ '}' :: t))) := by
    simp only [List.append_assoc]
  rw [htext]
  refine readKind_before name hw₁ (hword.before_close (t := t) ?_) (hw₂.append hw) hs
  simp only [List.append_assoc]

/-- Every kind of the grammar is read. -/
theorem readKind_of_kind {name : List Char} {content : Content}
    (h : Kind (String.ofList name) s content) :
    (readKind name (before i (s ++ '}' :: t))).result =
      .ok (content, before (i + s.length + 1) t) := by
  cases h with
  | @typed w₁ type w₂ hw₁ hname hword hw₂ =>
      simp only [constructWords, List.mem_cons, List.not_mem_nil, or_false, not_or] at hword
      have hread := readKind_before name (i := i) (t := '}' :: t) hw₁
        (hname.before_close rfl) hw₂ (forall_head?_cons rfl)
      simp only [hword, if_false, readTyped_close] at hread
      have htext : w₁ ++ type ++ w₂ ++ '}' :: t = w₁ ++ (type ++ (w₂ ++ '}' :: t)) := by simp
      rw [htext, hread]
      simp only [Reading.ofExcept, List.length_append, ← Nat.add_assoc]
  | @styled w₁ type w₂ format hw₁ hname hword hw₂ hformat =>
      simp only [constructWords, List.mem_cons, List.not_mem_nil, or_false, not_or] at hword
      have hread := readKind_before name (i := i) (t := ',' :: format ++ '}' :: t) hw₁
        (hname.congr (head?_append_cons _ _ _)) hw₂ (forall_head?_cons rfl)
      simp only [hword, if_false, readTyped_of_enclosed hformat] at hread
      have htext : w₁ ++ type ++ w₂ ++ ',' :: format ++ '}' :: t =
          w₁ ++ (type ++ (w₂ ++ (',' :: format ++ '}' :: t))) := by simp
      rw [htext, hread]
      simp only [Reading.ofExcept, List.length_append, List.length_cons, ← Nat.add_assoc]
  | @plural w₁ w₂ s offset variants hw₁ hname hw₂ hvariants =>
      obtain ⟨w, s, rfl, hw, hvariants, hhead⟩ := hvariants.exists_blank_append
      rw [readKind_before_close name hw₁ hname hw₂ hw (hhead t)]
      dsimp only
      rw [if_pos rfl, readPlural_of_variants hvariants]
      simp only [List.length_append, ← Nat.add_assoc]
  | @ordinal w₁ w₂ s offset variants hw₁ hname hw₂ hvariants =>
      obtain ⟨w, s, rfl, hw, hvariants, hhead⟩ := hvariants.exists_blank_append
      rw [readKind_before_close name hw₁ hname hw₂ hw (hhead t)]
      dsimp only
      rw [if_neg (by decide), if_pos rfl, readPlural_of_variants hvariants]
      simp only [List.length_append, ← Nat.add_assoc]
  | @select w₁ w₂ s options hw₁ hname hw₂ hchoices =>
      obtain ⟨w, s, rfl, hw, hchoices, hhead⟩ := hchoices.exists_blank_append
      rw [readKind_before_close name hw₁ hname hw₂ hw (hhead t)]
      dsimp only
      rw [if_neg (by decide), if_neg (by decide), if_pos rfl, readSelect_of_choices hchoices]
      simp only [List.length_append, ← Nat.add_assoc]

/-- Every kind that is read is one of the grammar. -/
theorem kind_of_readKind {name : List Char} {content : Content} {q : Place}
    (h : (readKind name (before i cs)).result = .ok (content, q)) :
    ∃ s t, cs = s ++ '}' :: t ∧ Kind (String.ofList name) s content := by
  rcases readKind_cases name i cs with ⟨position, hfault⟩ |
    ⟨w₁, word, w₂, rest, rfl, hw₁, hname, hw₂, hrest⟩
  · rw [hfault] at h
    cases h
  -- The rules see the text up to the closing brace only, which ends the word as well.
  have hname_of : ∀ {s t}, rest = s ++ '}' :: t → Name word (w₂ ++ s) := by
    rintro s t rfl
    rw [← List.append_assoc] at hname
    exact hname.of_append
  rw [readKind_before name hw₁ hname hw₂ hrest] at h
  dsimp only at h
  split at h
  · next hplural =>
    subst hplural
    obtain ⟨s, t, offset, variants, rfl, hvariants, rfl, -⟩ := variants_of_readPlural h
    exact ⟨_, t, by simp, .plural hw₁ (hname_of rfl) hw₂ hvariants⟩
  · next hplural =>
    split at h
    · next hordinal =>
      subst hordinal
      obtain ⟨s, t, offset, variants, rfl, hvariants, rfl, -⟩ := variants_of_readPlural h
      exact ⟨_, t, by simp, .ordinal hw₁ (hname_of rfl) hw₂ hvariants⟩
    · next hordinal =>
      split at h
      · next hselect =>
        subst hselect
        obtain ⟨s, t, options, rfl, hchoices, rfl, -⟩ := choices_of_readSelect h
        exact ⟨_, t, by simp, .select hw₁ (hname_of rfl) hw₂ hchoices⟩
      · next hselect =>
        have hplain : word ∉ constructWords := by
          simp only [constructWords, List.mem_cons, List.not_mem_nil, or_false, not_or]
          exact ⟨hplural, hordinal, hselect⟩
        have htyped : readTyped name word _ = .ok (content, q) := h
        rcases format_of_readTyped htyped with ⟨t, rfl⟩ | ⟨format, t, rfl, hformat⟩
        · rw [readTyped_close] at htyped
          cases htyped
          have hname' := hname_of (s := []) rfl
          rw [List.append_nil] at hname'
          exact ⟨_, t, by simp, .typed hw₁ hname' hplain hw₂⟩
        · rw [readTyped_of_enclosed hformat] at htyped
          cases htyped
          have hname' : Name word (w₂ ++ [',']) :=
            hname.congr (head?_append_cons _ _ _).symm
          exact ⟨_, t, by simp, .styled hw₁ hname' hplain hw₂ hformat⟩

/-! ### Placeholders -/

/-- The character after the name of a placeholder decides how it is read on. -/
theorem readPlaceholder_before {w₁ name w₂ : List Char} {c : Char} (hw₁ : Blank w₁)
    (hname : Name name (w₂ ++ c :: t)) (hw₂ : Blank w₂) (hc : Text.isBlank c = false) :
    readPlaceholder (before i ('{' :: (w₁ ++ (name ++ (w₂ ++ c :: t))))) =
      let after := before (i + 1 + w₁.length + name.length + w₂.length) (c :: t)
      if c = '}' then .ofExcept (.ok (.argument (String.ofList name) none none, after.advance 1))
      else if c = ',' then readKind name (after.advance 1)
      else .ofExcept (.error ⟨.unexpected c, after.pos⟩) := by
  have hafter : ∀ d ∈ (c :: t).head?, Text.isBlank d = false := by simpa using hc
  obtain ⟨g, gs, hglyphs, hchar, hbare⟩ := exists_head_glyph c t
  rw [readPlaceholder, advance_before_cons]
  simp only [skipBlanks_before hw₁ (hname.isBlank_head (w₂ ++ c :: t)),
    name_before hname.chars hname.maximal, advance_before hname.plain, skipBlanks_before hw₂ hafter,
    hname.ne_nil, if_false, rest_before, hglyphs, List.head?_cons, hbare '}' (by decide),
    hbare ',' (by decide), hchar]

/-- There is no name, the text ends after it, or a character follows it and its blanks. -/
theorem readPlaceholder_cases (i : Nat) (cs : List Char) :
    readPlaceholder (before i ('{' :: cs)) = .ofExcept (.error ⟨.missingName, i⟩) ∨
      (Plain cs ∧ ∃ position,
        readPlaceholder (before i ('{' :: cs)) = .ofExcept (.error ⟨.unmatchedBraces, position⟩)) ∨
      ∃ w₁ name w₂ c rest, cs = w₁ ++ (name ++ (w₂ ++ c :: rest)) ∧ Blank w₁ ∧
        Name name (w₂ ++ c :: rest) ∧ Blank w₂ ∧ Text.isBlank c = false := by
  obtain ⟨w₁, rest, rfl, hw₁, hrest₁⟩ := exists_blank_run cs
  obtain ⟨name, rest, rfl, hchars, hrest₂⟩ := exists_class_run isNameChar rest
  obtain ⟨w₂, rest, rfl, hw₂, hrest₃⟩ := exists_blank_run rest
  by_cases hne : name = []
  · subst hne
    refine .inl ?_
    rw [readPlaceholder, advance_before_cons]
    simp only [skipBlanks_before hw₁ hrest₁, name_before hchars hrest₂]
    rfl
  have hname : Name name (w₂ ++ rest) := ⟨hne, hchars, hrest₂⟩
  cases rest with
  | nil =>
      have hplain : Plain (w₁ ++ (name ++ (w₂ ++ []))) := by
        simpa using hname.plain.among_blanks hw₁ hw₂
      refine .inr (.inl ⟨hplain, ?_⟩)
      rw [readPlaceholder, advance_before_cons]
      simp only [skipBlanks_before hw₁ hrest₁, name_before hchars hrest₂,
        advance_before hname.plain, skipBlanks_before hw₂ hrest₃, hne, if_false]
      exact ⟨_, rfl⟩
  | cons c rest =>
      exact .inr (.inr ⟨w₁, name, w₂, c, rest, rfl, hw₁, hname, hw₂, hrest₃ c rfl⟩)

/-- Every placeholder of the grammar is read, whatever follows it. -/
theorem readPlaceholder_of_rule {content : Content} (h : Placeholder s content) :
    (readPlaceholder (before i (s ++ t))).result = .ok (content, before (i + s.length) t) := by
  cases h with
  | @simple w₁ name w₂ hw₁ hname hw₂ =>
      have hread := readPlaceholder_before (i := i) (t := t) hw₁ (hname.before_close rfl) hw₂
        (by decide)
      have htext : '{' :: (w₁ ++ name ++ w₂ ++ ['}']) ++ t =
          '{' :: (w₁ ++ (name ++ (w₂ ++ '}' :: t))) := by simp
      rw [htext, hread]
      dsimp only
      rw [if_pos rfl, advance_before_cons]
      show Except.ok (_, before _ t) = _
      refine ok_before_congr _ ?_ t
      simp only [List.length_append, List.length_cons, List.length_nil]
      omega
  | @kind w₁ name w₂ s _ hw₁ hname hw₂ hkind =>
      have hread := readPlaceholder_before (i := i) (t := s ++ '}' :: t) (c := ',') hw₁
        (hname.congr (head?_append_cons _ _ _)) hw₂ (by decide)
      have htext : '{' :: (w₁ ++ name ++ w₂ ++ ',' :: (s ++ ['}'])) ++ t =
          '{' :: (w₁ ++ (name ++ (w₂ ++ ',' :: (s ++ '}' :: t)))) := by simp
      rw [htext, hread]
      dsimp only
      rw [if_neg (by decide), if_pos rfl, advance_before_cons, readKind_of_kind hkind]
      refine ok_before_congr _ ?_ t
      simp only [List.length_append, List.length_cons, List.length_nil]
      omega

/-- Every placeholder that is read is one of the grammar. -/
theorem rule_of_readPlaceholder {content : Content} {q : Place}
    (h : (readPlaceholder (before i ('{' :: cs))).result = .ok (content, q)) :
    ∃ s t, '{' :: cs = s ++ t ∧ Placeholder s content ∧ q = before (i + s.length) t := by
  have hrule : ∃ s t, '{' :: cs = s ++ t ∧ Placeholder s content := by
    rcases readPlaceholder_cases i cs with hfault | ⟨-, position, hfault⟩ |
      ⟨w₁, name, w₂, c, rest, rfl, hw₁, hname, hw₂, hc⟩
    · rw [hfault] at h
      cases h
    · rw [hfault] at h
      cases h
    rw [readPlaceholder_before hw₁ hname hw₂ hc] at h
    dsimp only at h
    split at h
    · next hclose =>
      subst hclose
      cases h
      exact ⟨_, rest, by simp, .simple hw₁ hname.of_append hw₂⟩
    · split at h
      · next hcomma =>
        subst hcomma
        rw [advance_before_cons] at h
        obtain ⟨s, t, rfl, hkind⟩ := kind_of_readKind h
        have hname' : Name name (w₂ ++ [',']) := hname.congr (head?_append_cons _ _ _).symm
        exact ⟨_, t, by simp, .kind hw₁ hname' hw₂ hkind⟩
      · cases h
  -- Where the reader stopped follows from the other direction.
  obtain ⟨s, t, heq, hrule⟩ := hrule
  rw [heq, readPlaceholder_of_rule hrule] at h
  cases h
  exact ⟨s, t, heq, hrule, rfl⟩

end MessageFormat
