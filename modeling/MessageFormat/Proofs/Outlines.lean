import MessageFormat.Proofs.Placeholders

/-!
# Reading one level

The outline of a text has the elements that the grammar derives, and no fault, exactly when there
is such a derivation (`Outline.read_of_elements`, `Outline.elements_of_read`). The bodies that it
cuts out are the texts of the branches of its elements.
-/

namespace MessageFormat

open Grammar Place

variable {i : Nat} {s t : List Char}

/-! ### Bodies of branches -/

/-- The bodies are the texts of the branches of an element. -/
def Content.HasBodies (content : Content) (bodies : List Body) : Prop :=
  bodies.map (·.text) = content.branches.map (·.text.toList)

/-- Whenever the reading succeeds, its bodies are the texts of the branches. -/
def Reading.HasBodies (r : Reading) : Prop :=
  ∀ content q, r.result = .ok (content, q) → content.HasBodies r.bodies

/-- A construct has the bodies that were read. -/
theorem Reading.has_bodies_of_branches {branches : Branches} {make : List Branch → Content}
    (hmake : ∀ bs, (make bs).branches = bs) : (Reading.ofBranches branches make).HasBodies := by
  intro content q h
  obtain ⟨-, rfl⟩ := Reading.branches_of_result h
  rw [Content.HasBodies, hmake]
  simp [Reading.ofBranches, Branches.bodies, Branches.toList]

/-- A plural has the bodies that were read. -/
theorem has_bodies_readPlural {make : Option Int → List Branch → Content}
    (hmake : ∀ offset bs, (make offset bs).branches = bs) (p : Place) :
    (readPlural make p).HasBodies := by
  rw [readPlural]
  split
  · split
    · intro content q h
      cases h
    · exact Reading.has_bodies_of_branches (hmake _)
  · exact Reading.has_bodies_of_branches (hmake _)

/-- An argument has no branches. -/
theorem branches_of_readTyped {name type : List Char} {p q : Place} {content : Content}
    (h : readTyped name type p = .ok (content, q)) : content.branches = [] := by
  rw [readTyped] at h
  dsimp only at h
  split at h
  · split at h <;> cases h
    rfl
  · split at h
    · cases h
    · split at h <;> cases h
      rfl

/-- What follows the name of a placeholder has the bodies that were read. -/
theorem has_bodies_readKind (name : List Char) (p : Place) : (readKind name p).HasBodies := by
  rw [readKind]
  split
  · exact has_bodies_readPlural (fun _ _ => rfl) _
  split
  · exact has_bodies_readPlural (fun _ _ => rfl) _
  split
  · exact Reading.has_bodies_of_branches fun _ => rfl
  split
  · intro content q h
    cases h
  · intro content q h
    rw [Content.HasBodies, branches_of_readTyped h]
    rfl

/-- A placeholder has the bodies that were read. -/
theorem has_bodies_readPlaceholder (p : Place) : (readPlaceholder p).HasBodies := by
  rw [readPlaceholder]
  split
  · intro content q h
    cases h
  split
  · intro content q h
    cases h
  split
  · intro content q h
    cases h
    rfl
  split
  · exact has_bodies_readKind _ _
  · intro content q h
    cases h

/-! ### Single steps -/

namespace Outline

/-- At the end nothing is left to be read. -/
theorem read_nil : read (before i []) = ⟨[], [], none⟩ := by
  rw [read]
  rfl

/-- Elsewhere the next glyph decides what is read. -/
theorem read_of_rest {p : Place} {g : Glyph} {rest : List Glyph} (h : p.rest = g :: rest) :
    read p =
      if g = .closeBrace then ⟨[], [], some ⟨.unmatchedBraces, p.pos⟩⟩
      else if g = .openBrace then
        match (readPlaceholder p).result with
        | .error fault => ⟨[], (readPlaceholder p).bodies, some fault⟩
        | .ok (content, after) =>
          (read after).cons ⟨⟨content, p.pos, after.pos⟩, (readPlaceholder p).bodies⟩
      else
        let run := g :: rest.takeWhile Glyph.isText
        let after := p.advance run.length
        (read after).cons
          ⟨⟨.text (String.ofList (Glyph.decode run)), p.pos, after.pos⟩, []⟩ := by
  conv => lhs; rw [read]
  split
  · next hnil => rw [h] at hnil; cases hnil
  · next g' rest' hcons =>
    rw [h] at hcons
    cases hcons
    split
    · rfl
    · split
      · split
        · next hfault => rw [hfault]
        · next hok =>
          dsimp only
          rw [hok]
      · rfl

/-- A closing brace that nothing opened is a fault. -/
theorem read_close : read (before i ('}' :: t)) = ⟨[], [], some ⟨.unmatchedBraces, i⟩⟩ := by
  have hrest : (before i ('}' :: t)).rest = .closeBrace :: glyphs .outside t :=
    glyphs_cons t
  rw [read_of_rest hrest, if_pos rfl, pos_before]

/-- A placeholder is an element, and reading goes on after it. -/
theorem read_placeholder {content : Content} (h : Placeholder s content) :
    read (before i (s ++ t)) =
      (read (before (i + s.length) t)).cons
        ⟨⟨content, i, i + s.length⟩, (readPlaceholder (before i (s ++ t))).bodies⟩ := by
  have hresult := readPlaceholder_of_rule (i := i) (t := t) h
  obtain ⟨s', rfl⟩ : ∃ s', s = '{' :: s' := by
    cases h <;> exact ⟨_, rfl⟩
  have hrest : (before i ('{' :: s' ++ t)).rest = .openBrace :: glyphs .outside (s' ++ t) :=
    glyphs_cons (s' ++ t)
  rw [read_of_rest hrest, if_neg (by decide), if_pos rfl, hresult]
  rfl

/-- A placeholder that is not read to its end is the fault of the outline. -/
theorem read_fault {fault : Fault}
    (h : (readPlaceholder (before i ('{' :: t))).result = .error fault) :
    read (before i ('{' :: t)) =
      ⟨[], (readPlaceholder (before i ('{' :: t))).bodies, some fault⟩ := by
  have hrest : (before i ('{' :: t)).rest = .openBrace :: glyphs .outside t :=
    glyphs_cons t
  rw [read_of_rest hrest, if_neg (by decide), if_pos rfl, h]

/-- A run of text is an element, and reading goes on after it. -/
theorem read_text {v : List Char} (hs : s ≠ []) (hrun : TextRun t.head? s v)
    (ht : ∀ c ∈ t.head?, c = '{' ∨ c = '}') :
    read (before i (s ++ t)) =
      (read (before (i + s.length) t)).cons
        ⟨⟨.text (String.ofList v), i, i + s.length⟩, []⟩ := by
  obtain ⟨gs, hgs⟩ := hrun.text_glyphs
  obtain ⟨g, gs, rfl⟩ : ∃ g gs', gs = g :: gs' := by
    cases gs with
    | nil => exact absurd hgs.spell_eq.symm hs
    | cons g gs => exact ⟨g, gs, rfl⟩
  have hrest : (before i (s ++ t)).rest = g :: (gs ++ glyphs .outside t) := hgs.glyphs_eq
  -- The glyphs of text end where the pieces do, at a brace or at the end.
  have hend : ∀ g' ∈ (glyphs .outside t).head?, g'.isText = false := by
    cases t with
    | nil => simp [glyphs]
    | cons c t =>
        rcases ht c rfl with rfl | rfl
        all_goals
          rw [glyphs_cons]
          intro g' hg'
          obtain rfl := Option.some.inj hg'
          rfl
  have htake : (gs ++ glyphs .outside t).takeWhile Glyph.isText = gs := by
    rw [List.takeWhile_append_of_pos fun g' hg' => hgs.is_text g' (List.mem_cons_of_mem _ hg')]
    cases hglyphs : glyphs .outside t with
    | nil => simp
    | cons g' rest =>
        rw [hglyphs] at hend
        rw [List.takeWhile_cons_of_neg (by simpa using hend g' rfl), List.append_nil]
  have hg := hgs.is_text g (by simp)
  simp only [Glyph.isText, Bool.and_eq_true, bne_iff_ne, ne_eq] at hg
  have hadvance := advance_before_of_glyphs (i := i) hgs.glyphs_eq hgs.length_eq
  rw [read_of_rest hrest, if_neg hg.2, if_neg hg.1]
  simp only [htake, hgs.length_eq, hadvance, hgs.decode_eq, pos_before]

/-- Induction along the reading of one level. Reading ends where the text does, at a closing brace
that nothing opened, or at a placeholder that is not read to its end. -/
theorem level_induction {motive : Nat → List Char → Prop} (nil : ∀ i, motive i [])
    (close : ∀ i t, motive i ('}' :: t))
    (fault : ∀ i t fault, (readPlaceholder (before i ('{' :: t))).result = .error fault →
      motive i ('{' :: t))
    (placeholder : ∀ i s content t, Placeholder s content → motive (i + s.length) t →
      motive i (s ++ t))
    (text : ∀ i s v t, s ≠ [] → TextRun t.head? s v → (∀ c ∈ t.head?, c = '{' ∨ c = '}') →
      motive (i + s.length) t → motive i (s ++ t))
    (i : Nat) (cs : List Char) : motive i cs := by
  match cs with
  | [] => exact nil i
  | c :: rest =>
      by_cases hopen : c = '{'
      · subst hopen
        cases hresult : (readPlaceholder (before i ('{' :: rest))).result with
        | error f => exact fault i rest f hresult
        | ok found =>
            obtain ⟨content, after⟩ := found
            obtain ⟨s, t, heq, hrule, -⟩ := rule_of_readPlaceholder hresult
            have hlt := length_lt_of_cons_eq heq (by cases hrule <;> simp)
            rw [heq]
            exact placeholder i s content t hrule
              (level_induction nil close fault placeholder text (i + s.length) t)
      by_cases hclose : c = '}'
      · subst hclose
        exact close i rest
      obtain ⟨s, v, t, heq, hrun, ht⟩ := exists_text_run (c :: rest)
      have hs : s ≠ [] := by
        rintro rfl
        rw [List.nil_append] at heq
        rw [← heq] at ht
        exact (ht c rfl).elim hopen hclose
      have hlt := length_lt_of_cons_eq heq hs
      rw [heq]
      exact text i s v t hs hrun ht
        (level_induction nil close fault placeholder text (i + s.length) t)
  termination_by cs.length

/-! ### The outline and the grammar -/

/-- The outline was read to the end, and its pieces have these elements with their bodies. -/
structure Reads (o : Outline) (elements : List Element) : Prop where
  /-- There is no fault. -/
  fault : o.fault = none
  /-- No construct is unfinished. -/
  pending : o.pending = []
  /-- The elements of the pieces. -/
  elements : o.pieces.map (·.element) = elements
  /-- The bodies of the pieces. -/
  bodies : ∀ piece ∈ o.pieces, piece.element.content.HasBodies piece.bodies

/-- One more piece in front. -/
theorem Reads.cons {o : Outline} {elements : List Element} {piece : Piece} (h : o.Reads elements)
    (hpiece : piece.element.content.HasBodies piece.bodies) :
    (o.cons piece).Reads (piece.element :: elements) where
  fault := h.fault
  pending := h.pending
  elements := congrArg (piece.element :: ·) h.elements
  bodies := by
    intro piece' hpiece'
    rcases List.mem_cons.1 hpiece' with rfl | hpiece'
    · exact hpiece
    · exact h.bodies piece' hpiece'

/-- The elements of the grammar are read. -/
theorem read_of_elements {elements : List Element} (h : Elements i s elements) :
    (read (before i s)).Reads elements := by
  induction h with
  | nil => rw [read_nil]; exact ⟨rfl, rfl, rfl, by simp⟩
  | text hs hrun ht _ ih =>
      rw [read_text hs hrun fun c hc => .inl (ht c hc)]
      exact ih.cons rfl
  | placeholder hrule _ ih =>
      rw [read_placeholder hrule]
      exact ih.cons (has_bodies_readPlaceholder _ _ _ (readPlaceholder_of_rule hrule))

/-- Elements that are read without a fault are elements of the grammar. -/
theorem elements_of_read (h : (read (before i s)).fault = none) :
    ∃ elements, Elements i s elements := by
  induction i, s using level_induction with
  | nil i => exact ⟨[], .nil⟩
  | close i t =>
      rw [read_close] at h
      cases h
  | fault i t fault hresult =>
      rw [read_fault hresult] at h
      cases h
  | placeholder i s content t hrule ih =>
      rw [read_placeholder hrule] at h
      obtain ⟨elements, helements⟩ := ih h
      exact ⟨_, .placeholder hrule helements⟩
  | text i s v t hs hrun ht ih =>
      rw [read_text hs hrun ht] at h
      obtain ⟨elements, helements⟩ := ih h
      refine ⟨_, .text hs hrun ?_ helements⟩
      intro c hc
      rcases ht c hc with rfl | rfl
      · rfl
      -- A closing brace after the run would have been a fault.
      · obtain ⟨t, rfl⟩ := List.head?_eq_some_iff.1 hc
        have hfault : (read (before (i + s.length) ('}' :: t))).fault = none := h
        rw [read_close] at hfault
        cases hfault

end Outline

end MessageFormat
