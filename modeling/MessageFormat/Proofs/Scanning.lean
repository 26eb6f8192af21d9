import MessageFormat.Proofs.Places

/-!
# Scanning for braces

What it means that the braces of a text are balanced. The count of unquoted braces is given twice:
as a sum over the prefixes of a text, which says what balanced means, and as a scan from left to
right, `openAfter`, which can be followed along the readers. `balanced_iff` says that they agree.
-/

namespace MessageFormat

open Grammar Place

variable {i : Nat} {s t cs : List Char}

/-! ### Counting -/

/-- What a glyph adds to the number of open braces. -/
def Glyph.delta (g : Glyph) : Int :=
  if g = .openBrace then 1 else if g = .closeBrace then -1 else 0

/-- The unquoted braces opened in a run of glyphs without those closed in it. -/
def openBraces : List Glyph → Int
  | [] => 0
  | g :: gs => g.delta + openBraces gs

/-- The unquoted braces of a text open and close in pairs. -/
structure Balanced (text : List Char) : Prop where
  /-- No brace is closed before it was opened. -/
  nonneg : ∀ gs, gs <+: glyphs .outside text → 0 ≤ openBraces gs
  /-- All braces are closed. -/
  closed : openBraces (glyphs .outside text) = 0

/-- The number of open braces after a run of glyphs that starts with `depth` open ones; none if a
brace is closed that was not open. -/
def openAfter (depth : Nat) : List Glyph → Option Nat
  | [] => some depth
  | g :: rest =>
    if g = .closeBrace ∧ depth = 0 then none else openAfter (g.depthAfter depth) rest

/-- A glyph that may follow changes the number of open braces by what it adds. -/
theorem Glyph.depthAfter_eq {g : Glyph} {depth : Nat} (h : ¬ (g = .closeBrace ∧ depth = 0)) :
    (g.depthAfter depth : Int) = depth + g.delta := by
  rw [depthAfter, delta]
  split
  · simp
  · split
    · next hclose =>
      have hpos : depth ≠ 0 := fun hdepth => h ⟨hclose, hdepth⟩
      omega
    · simp

/-- The scan ends with the count, unless the count is negative before. -/
theorem openAfter_eq_some_iff {depth n : Nat} {gs : List Glyph} :
    openAfter depth gs = some n ↔
      (∀ p, p <+: gs → 0 ≤ depth + openBraces p) ∧ (n : Int) = depth + openBraces gs := by
  induction gs generalizing depth with
  | nil =>
      simp only [openAfter, List.prefix_nil, forall_eq, openBraces]
      simp
      omega
  | cons g gs ih =>
      rw [openAfter]
      split
      · next hclose =>
        obtain ⟨rfl, rfl⟩ := hclose
        refine iff_of_false (by simp) fun h => ?_
        have hneg := h.1 [.closeBrace] ⟨gs, rfl⟩
        simp [openBraces, Glyph.delta] at hneg
      · next hclose =>
        have hdepth := Glyph.depthAfter_eq hclose
        have hcons : ∀ p, openBraces (g :: p) = g.delta + openBraces p := fun p => rfl
        -- A prefix is empty or has the glyph in front, and then the count starts after the glyph.
        rw [ih, hdepth, hcons, Int.add_assoc]
        refine and_congr_left fun _ => ⟨fun h p hp => ?_, fun h p hp => ?_⟩
        · rcases List.prefix_cons_iff.1 hp with rfl | ⟨p', rfl, hp'⟩
          · simp [openBraces]
          · rw [hcons, ← Int.add_assoc]
            exact h p' hp'
        · rw [Int.add_assoc, ← hcons]
          exact h (g :: p) (List.prefix_cons_iff.2 (.inr ⟨p, rfl, hp⟩))

/-- Balanced texts are those whose scan ends without an open brace. -/
theorem balanced_iff {text : List Char} :
    Balanced text ↔ openAfter 0 (glyphs .outside text) = some 0 := by
  rw [openAfter_eq_some_iff]
  constructor
  · intro h
    exact ⟨fun p hp => by simpa using h.nonneg p hp, by simpa using h.closed.symm⟩
  · rintro ⟨hnonneg, hclosed⟩
    exact ⟨fun p hp => by simpa using hnonneg p hp, by simpa using hclosed.symm⟩

instance (text : List Char) : Decidable (Balanced text) :=
  decidable_of_iff _ balanced_iff.symm

/-! ### Scanning -/

/-- Text does not change the number of open braces. -/
theorem openAfter_append_of_text {depth : Nat} {gs gs' : List Glyph}
    (hgs : ∀ g ∈ gs, g.isText = true) : openAfter depth (gs ++ gs') = openAfter depth gs' := by
  induction gs with
  | nil => rfl
  | cons g gs ih =>
      obtain ⟨hclose, hdepth⟩ := Glyph.depthAfter_of_isText (hgs g (by simp)) depth
      rw [List.cons_append, openAfter, if_neg (fun h => hclose h.1), hdepth,
        ih fun g' hg' => hgs g' (List.mem_cons_of_mem _ hg')]

/-- A run of glyphs is scanned from where the run before it ended. -/
theorem openAfter_append {depth : Nat} {gs gs' : List Glyph} :
    openAfter depth (gs ++ gs') = (openAfter depth gs).bind (openAfter · gs') := by
  induction gs generalizing depth with
  | nil => rfl
  | cons g gs ih =>
      rw [List.cons_append, openAfter, openAfter]
      split
      · rfl
      · exact ih

/-- Plain text does not change the number of open braces. -/
theorem openAfter_plain {depth : Nat} (hs : Plain s) :
    openAfter depth (glyphs .outside (s ++ t)) = openAfter depth (glyphs .outside t) := by
  have hglyphs := hs.text_glyphs t
  rw [hglyphs.glyphs_eq, openAfter_append_of_text hglyphs.is_text]

/-- An opening brace opens one more. -/
theorem openAfter_open_brace {depth : Nat} :
    openAfter depth (glyphs .outside ('{' :: t)) = openAfter (depth + 1) (glyphs .outside t) := by
  rw [glyphs_cons, openAfter, if_neg (by simp)]
  rfl

/-- A closing brace closes the last one. -/
theorem openAfter_close_brace {depth : Nat} :
    openAfter (depth + 1) (glyphs .outside ('}' :: t)) = openAfter depth (glyphs .outside t) := by
  rw [glyphs_cons, openAfter, if_neg (by simp)]
  rfl

/-- Enclosed text and its closing brace close what was open before. -/
theorem openAfter_enclosed {k : Nat} (h : Enclosed k s) (depth : Nat) (t : List Char) :
    openAfter (depth + k + 1) (glyphs .outside (s ++ '}' :: t)) =
      openAfter depth (glyphs .outside t) := by
  induction h with
  | nil => exact openAfter_close_brace
  | opening _ ih =>
      rw [List.cons_append, openAfter_open_brace]
      exact ih
  | closing _ ih =>
      rw [List.cons_append, ← Nat.add_assoc, openAfter_close_brace]
      exact ih
  | @piece k s v s' hpiece _ ih =>
      have hnext : s'.head?.or (some '}') = (s' ++ '}' :: t).head? := head?_or_head? s' ('}' :: t)
      rw [hnext] at hpiece
      obtain ⟨gs, hgs⟩ := hpiece.text_glyphs
      rw [List.append_assoc, hgs.glyphs_eq, openAfter_append_of_text hgs.is_text, ih]

/-- With more braces open before, as many more are open after. -/
theorem openAfter_add {depth n : Nat} {gs : List Glyph} (h : openAfter depth gs = some n)
    (k : Nat) : openAfter (depth + k) gs = some (n + k) := by
  rw [openAfter_eq_some_iff] at h ⊢
  obtain ⟨hnonneg, hcount⟩ := h
  refine ⟨?_, by omega⟩
  intro p hp
  have := hnonneg p hp
  omega

/-- The brace that was opened before the text is not closed in it, nor is one closed that was not
open. -/
def Unclosed (text : List Char) : Prop :=
  ∃ n, openAfter 1 (glyphs .outside text) = some (n + 1)

/-- Where the search finds no closing brace, braces stay open. -/
theorem openAfter_of_closing {depth : Nat} {gs : List Glyph} (h : closing depth gs = none) :
    ∃ n, openAfter (depth + 1) gs = some (n + 1) := by
  induction gs generalizing depth with
  | nil => exact ⟨depth, rfl⟩
  | cons g gs ih =>
      rw [closing] at h
      split at h
      · cases h
      · next hclose =>
        obtain ⟨n, hn⟩ := ih (Option.map_eq_none_iff.1 h)
        -- The scan has one brace more open than the search has to close, at every glyph.
        have hdepth : g.depthAfter (depth + 1) = g.depthAfter depth + 1 := by
          have h₁ := Glyph.depthAfter_eq hclose
          have h₂ : (g.depthAfter (depth + 1) : Int) = (depth + 1 : Nat) + g.delta :=
            Glyph.depthAfter_eq (by simp)
          omega
        refine ⟨n, ?_⟩
        rw [openAfter, if_neg (by simp), hdepth, hn]

/-- A text without the closing brace is unclosed. -/
theorem unclosed_of_body? (h : (before i cs).body? = none) : Unclosed cs :=
  openAfter_of_closing (closing_eq_none_of_body? h)

/-- The empty text is unclosed. -/
theorem unclosed_nil : Unclosed [] :=
  ⟨0, rfl⟩

/-- Plain text in front closes nothing. -/
theorem Unclosed.plain_append (hs : Plain s) (h : Unclosed t) : Unclosed (s ++ t) := by
  rw [Unclosed, openAfter_plain hs]
  exact h

/-- A plain text is unclosed. -/
theorem Plain.unclosed (hs : Plain s) : Unclosed s := by
  have h := unclosed_nil.plain_append hs
  rwa [List.append_nil] at h

/-- A body with its braces closes nothing more. -/
theorem Unclosed.body_append (hs : Enclosed 0 s) (h : Unclosed t) :
    Unclosed ('{' :: (s ++ '}' :: t)) := by
  rw [Unclosed, openAfter_open_brace, openAfter_enclosed hs 1 t]
  exact h

/-- One more unclosed brace in front closes nothing. -/
theorem Unclosed.open_brace (h : Unclosed t) : Unclosed ('{' :: t) := by
  obtain ⟨n, hn⟩ := h
  refine ⟨n + 1, ?_⟩
  rw [openAfter_open_brace]
  exact openAfter_add hn 1

end MessageFormat
