import MessageFormat.Proofs.Rebuilding

/-!
# Replaced text

Rebuilding undoes parsing, with or without replacements for the text of a message: what is rebuilt
is parsed into the same elements, with the replaced text in place of the old one, and is then
rebuilt as it is.
-/

namespace MessageFormat

open Grammar

/-! ### Contents -/

/-- The content with its text replaced, if there is a replacement; nothing if that is empty. -/
def Content.retexted (replacement : Option String) : Content → Option Content
  | .text value =>
      match replacement with
      | none => some (.text value)
      | some new => if new = "" then none else some (.text new)
  | content => some content.canonical

/-- When only text is replaced, constructs keep their branches. -/
theorem rebuilt_text_only (assigned : Entries Int String) (n : Nat) (c : Content) :
    c.rebuilt { text := assigned } {} n = c.retexted (assigned.get? n) := by
  cases c with
  | text value =>
      rw [Content.rebuilt]
      cases assigned.get? n <;> rfl
  | argument name type style => rfl
  | plural name offset variants => rfl
  | ordinal name variants => rfl
  | select name options => rfl

/-- Text becomes text or nothing, and everything else keeps all but its offset. -/
theorem retexted_cases (replacement : Option String) (c : Content) :
    (∃ value, c = .text value ∧ ∀ c', c.retexted replacement = some c' → ∃ new, c' = .text new) ∨
      (c.retexted replacement = some c.canonical ∧ c.isPlaceholder = true) := by
  cases c with
  | text value =>
      refine .inl ⟨value, rfl, fun c' h => ?_⟩
      cases replacement with
      | none =>
          cases h
          exact ⟨value, rfl⟩
      | some new =>
          rw [Content.retexted] at h
          split at h
          · cases h
          · cases h
            exact ⟨new, rfl⟩
  | argument name type style => exact .inr ⟨rfl, rfl⟩
  | plural name offset variants => exact .inr ⟨rfl, rfl⟩
  | ordinal name variants => exact .inr ⟨rfl, rfl⟩
  | select name options => exact .inr ⟨rfl, rfl⟩

/-- An offset that is not written makes no difference to the branches. -/
theorem branches_canonical (c : Content) : c.canonical.branches = c.branches := by
  cases c <;> rfl

/-! ### What a message holds -/

/-- The content without what replacing text may change: nothing of text, and no offset. -/
def Content.kept : Content → Option Content
  | .text _ => none
  | .plural name _ variants => some (.plural name none variants)
  | content => some content

/-- What a message holds depends on the part that is kept. -/
theorem described_eq_of_kept (text text' : String) (elements elements' : List Element)
    {contents contents' : List Content}
    (h : contents.filterMap (·.kept) = contents'.filterMap (·.kept)) :
    (described text elements contents).names = (described text' elements' contents').names ∧
      (described text elements contents).hasPlurals =
        (described text' elements' contents').hasPlurals ∧
      (described text elements contents).hasSelect =
        (described text' elements' contents').hasSelect := by
  have hnames : ∀ cs : List Content,
      cs.filterMap (·.name?) = (cs.filterMap (·.kept)).filterMap (·.name?) := by
    intro cs
    rw [List.filterMap_filterMap]
    congr 1
    funext c
    cases c <;> rfl
  have hany : ∀ p : Content → Bool, (∀ c : Content, p c = c.kept.any p) →
      ∀ cs : List Content, cs.any p = (cs.filterMap (·.kept)).any p := by
    intro p hp cs
    rw [List.any_filterMap]
    exact congrArg cs.any (funext hp)
  have hplurals := hany (·.isPlural) fun c => by cases c <;> rfl
  have hselect := hany (·.isSelect) fun c => by cases c <;> rfl
  simp only [described]
  rw [hnames, hnames contents', hplurals, hplurals contents', hselect, hselect contents', h]
  exact ⟨rfl, rfl, rfl⟩

/-- Replacing text changes nothing of what is kept. -/
theorem kept_of_retexted (replacement : Option String) (c : Content) :
    ((c.retexted replacement).toList.flatMap (·.withBranches)).filterMap (·.kept) =
      c.withBranches.filterMap (·.kept) := by
  rcases retexted_cases replacement c with ⟨value, rfl, htext⟩ | ⟨hc, hplace⟩
  · cases h : Content.retexted replacement (.text value) with
    | none => rfl
    | some c' =>
        obtain ⟨new, rfl⟩ := htext c' h
        rfl
  · rw [hc]
    have hbranches : c.canonical.withBranches.filterMap (·.kept) =
        c.withBranches.filterMap (·.kept) := by
      rw [Content.withBranches, Content.withBranches, branches_canonical]
      cases c <;> rfl
    simpa using hbranches

/-- Replacing text changes nothing of what is kept at any depth. -/
theorem kept_of_rebuiltContents (assigned : Entries Int String) (k : Nat)
    (elements : List Element) :
    ((rebuiltContents { text := assigned } {} k elements).flatMap (·.withBranches)).filterMap
        (·.kept) =
      ((elements.map (·.content)).flatMap (·.withBranches)).filterMap (·.kept) := by
  induction elements generalizing k with
  | nil => rfl
  | cons e elements ih =>
      rw [rebuiltContents_cons, List.flatMap_append, List.filterMap_append, ih (k + 1),
        rebuilt_text_only, kept_of_retexted, List.map_cons, List.flatMap_cons,
        List.filterMap_append]

/-! ### Messages -/

/-- The elements of a text are texts and placeholders of the grammar. -/
theorem Grammar.Elements.placeholder_of_mem {i : Nat} {s : List Char} {elements : List Element}
    (h : Elements i s elements) {e : Element} (he : e ∈ elements)
    (hplace : e.content.isPlaceholder = true) : ∃ s, Placeholder s e.content := by
  induction h with
  | nil => cases he
  | text _ _ _ _ ih =>
      rcases List.mem_cons.1 he with rfl | he
      · cases hplace
      · exact ih he
  | placeholder hrule _ ih =>
      rcases List.mem_cons.1 he with rfl | he
      · exact ⟨_, hrule⟩
      · exact ih he

/-- The contents after text was replaced, by the elements that they come from. -/
theorem exists_of_mem_rebuiltContents {t : Replacements} {o : Options} {k : Nat}
    {elements : List Element} {c : Content} (h : c ∈ rebuiltContents t o k elements) :
    ∃ e ∈ elements, ∃ n, e.content.rebuilt t o n = some c := by
  obtain ⟨⟨e, n⟩, hmem, hc⟩ := List.mem_filterMap.1 h
  exact ⟨e, List.fst_mem_of_mem_zipIdx hmem, n, hc⟩

/-- Every content after text was replaced is text or comes from a placeholder. -/
theorem retexted_of_mem_rebuiltContents {assigned : Entries Int String} {k : Nat}
    {elements : List Element} {c : Content}
    (h : c ∈ rebuiltContents { text := assigned } {} k elements) :
    ∃ e ∈ elements, (∃ new, c = .text new) ∨
      c = e.content.canonical ∧ e.content.isPlaceholder = true := by
  obtain ⟨e, he, n, hn⟩ := exists_of_mem_rebuiltContents h
  rw [rebuilt_text_only] at hn
  refine ⟨e, he, ?_⟩
  rcases retexted_cases (assigned.get? n) e.content with ⟨-, -, htext⟩ | ⟨hcanonical, hplace⟩
  · exact .inl (htext c hn)
  · rw [hcanonical] at hn
    exact .inr ⟨(Option.some.inj hn).symm, hplace⟩

/-- Rebuilding undoes parsing, with or without replacements for the text. -/
theorem parse_rebuild_text {text : String} {m : Message} {assigned : Entries Int String}
    (h : parse text = .ok m)
    (hstyle : ∀ e ∈ m.elements, e.content.endsInApostrophe = false)
    (hassigned : ∀ entry ∈ assigned, apostropheAfterBrace entry.2.toList = false) :
    ∃ m', parse (rebuild m.toPattern { text := assigned } {}) = .ok m' ∧
      m'.elements.map (·.content) =
        (m.elements.zipIdx.filterMap fun x => x.1.content.retexted (assigned.get? x.2)) ∧
      m'.names = m.names ∧ m'.hasPlurals = m.hasPlurals ∧ m'.hasSelect = m.hasSelect ∧
      rebuild m'.toPattern .empty {} = rebuild m.toPattern { text := assigned } {} := by
  have helements := elements_of_parse h
  obtain ⟨hbodies, hm⟩ := (parse_eq_ok_iff_of_elements helements).1 h
  have hw : Writable { text := assigned } {} 0 m.elements := by
    refine ⟨hassigned, fun c hc hplace => ?_⟩
    obtain ⟨e, he, ⟨new, rfl⟩ | ⟨rfl, hplace'⟩⟩ := retexted_of_mem_rebuiltContents hc
    · cases hplace
    · obtain ⟨s, hrule⟩ := helements.placeholder_of_mem he hplace'
      exact printable_of_placeholder hrule (hstyle e he)
  have hbranches : ∀ c ∈ rebuiltContents { text := assigned } {} 0 m.elements,
      ∀ b ∈ c.branches, isMessage b.text = true := by
    intro c hc b hb
    obtain ⟨e, he, ⟨new, rfl⟩ | ⟨rfl, -⟩⟩ := retexted_of_mem_rebuiltContents hc
    · cases hb
    · rw [branches_canonical] at hb
      exact hbodies e he b hb
  obtain ⟨elements', hcontents, hparse, hfixed⟩ := parse_rebuild h hw hbranches
  refine ⟨_, hparse, ?_, ?_⟩
  · simp only [← rebuilt_text_only]
    exact hcontents
  · have hkept := described_eq_of_kept (rebuild m.toPattern { text := assigned } {}) text elements'
      m.elements (kept_of_rebuiltContents assigned 0 m.elements)
    rw [← hm] at hkept
    exact ⟨hkept.1, hkept.2.1, hkept.2.2, hfixed⟩

/-- The text `it's ` before an argument is replaced by text with braces and an apostrophe. -/
theorem parse_rebuild_text_braces :
    let m : Message :=
      ⟨⟨"it''s \x7bn\x7d", [⟨.text "it's ", 0, 6⟩, ⟨.argument "n" none none, 6, 9⟩]⟩, ["n"], false,
        false⟩
    let assigned : Entries Int String := [(0, "\x7bit's\x7d ")]
    parse "it''s \x7bn\x7d" = .ok m ∧
      ∃ m', parse (rebuild m.toPattern { text := assigned } {}) = .ok m' ∧
        m'.elements.map (·.content) =
          (m.elements.zipIdx.filterMap fun x => x.1.content.retexted (assigned.get? x.2)) ∧
        m'.names = m.names ∧ m'.hasPlurals = m.hasPlurals ∧ m'.hasSelect = m.hasSelect ∧
        rebuild m'.toPattern .empty {} = rebuild m.toPattern { text := assigned } {} := by
  intro m assigned
  have hparse : parse "it''s \x7bn\x7d" = .ok m := by decide +kernel
  exact ⟨hparse, parse_rebuild_text hparse (by decide) (by decide)⟩

end MessageFormat
