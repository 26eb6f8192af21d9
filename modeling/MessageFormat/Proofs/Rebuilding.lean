import MessageFormat.Proofs.Derivations
import MessageFormat.Proofs.Escaping
import MessageFormat.Proofs.Printing
import MessageFormat.Rebuild.Rebuild

/-!
# Rebuilt messages

What a message says after it was rebuilt. `restored_of_elements` goes along its elements: the pieces
that they become are elements of the grammar again, each with the content that its replacement
gives it. A piece is read without its neighbours, because text is only ever followed by a
placeholder or by the end.
-/

namespace MessageFormat

open Grammar

/-! ### Contents -/

/-- What an element says after it was rebuilt; nothing if its text was replaced by no text. -/
def Content.rebuilt (t : Replacements) (o : Options) (index : Nat) : Content → Option Content
  | .text value =>
      match t.text.get? index with
      | none => some (.text value)
      | some replacement => if replacement = "" then none else some (.text replacement)
  | .argument name type style => some (.argument name type style)
  | .plural name offset variants =>
      let merged := mergeVariants o.keepExactMatches variants (t.variantsFor index name)
      some (.plural name (offset.filter (0 < ·)) (o.complete .cardinal merged))
  | .ordinal name variants =>
      let merged := mergeVariants o.keepExactMatches variants (t.variantsFor index name)
      some (.ordinal name (o.complete .ordinal merged))
  | .select name options => some (.select name (mergeOptions options (t.optionsFor index name)))

/-- The content is that of a placeholder. -/
def Content.isPlaceholder : Content → Bool
  | .text _ => false
  | _ => true

/-- Placeholders are not text. -/
theorem Grammar.Placeholder.isPlaceholder {s : List Char} {content : Content}
    (h : Placeholder s content) : content.isPlaceholder = true := by
  cases h with
  | simple => rfl
  | kind _ _ _ hkind => cases hkind <;> rfl

/-- The offset that is not written makes no difference. -/
theorem writeOffset_filter (offset : Option Int) :
    writeOffset (offset.filter (0 < ·)) = writeOffset offset := by
  cases offset with
  | none => rfl
  | some n => by_cases hn : 0 < n <;> simp [Option.filter, writeOffset, hn]

/-- A placeholder is rebuilt as its new content is written. -/
theorem rebuildElement_of_placeholder {p : Pattern} {t : Replacements} {o : Options} {n : Nat}
    {e : Element} (h : e.content.isPlaceholder = true) :
    ∃ c, e.content.rebuilt t o n = some c ∧ c.isPlaceholder = true ∧
      rebuildElement p t o n e = c.written := by
  obtain ⟨content, start, stop⟩ := e
  cases content with
  | text value => cases h
  | argument name type style => exact ⟨_, rfl, rfl, rfl⟩
  | plural name offset variants =>
      refine ⟨_, rfl, rfl, ?_⟩
      simp only [rebuildElement, Content.written, writePlural, writeOffset_filter]
  | ordinal name variants => exact ⟨_, rfl, rfl, rfl⟩
  | select name options => exact ⟨_, rfl, rfl, rfl⟩

/-- Without replacements, printable content stays as it is. -/
theorem Content.Printable.rebuilt_empty {c : Content} (h : c.Printable) (n : Nat) :
    c.rebuilt .empty {} n = some c := by
  cases h with
  | simple => rfl
  | typed => rfl
  | styled => rfl
  | @plural name variants offset _ hoffset _ =>
      have hfilter : offset.filter (0 < ·) = offset := by
        cases offset with
        | none => rfl
        | some m => simp [Option.filter, (hoffset m rfl).1]
      simp only [Content.rebuilt, hfilter]
      rfl
  | ordinal => rfl
  | select => rfl

/-! ### Pieces -/

/-- The pieces that the elements become, the first of them at index `k`. -/
def rebuiltText (p : Pattern) (t : Replacements) (o : Options) (k : Nat)
    (elements : List Element) : List Char :=
  (elements.zipIdx k).flatMap fun x => (rebuildElement p t o x.2 x.1).toList

/-- What the pieces say. -/
def rebuiltContents (t : Replacements) (o : Options) (k : Nat) (elements : List Element) :
    List Content :=
  (elements.zipIdx k).filterMap fun x => x.1.content.rebuilt t o x.2

/-- A rebuilt message consists of its pieces. -/
theorem toList_rebuild (p : Pattern) (t : Replacements) (o : Options) :
    (rebuild p t o).toList = rebuiltText p t o 0 p.elements := by
  rw [rebuild, rebuiltPieces, String.toList_join, List.mapIdx_eq_zipIdx_map, List.flatMap_map,
    rebuiltText]

/-- A stretch of a message is found again by its place. -/
theorem slice_of_drop {p : Pattern} {i : Nat} {s t : List Char}
    (h : p.source.toList.drop i = s ++ t) : p.slice i (i + s.length) = String.ofList s := by
  rw [Pattern.slice, List.drop_take, h, Nat.add_sub_cancel_left, List.take_left]

/-- What comes after a stretch of a message. -/
theorem drop_of_drop {cs : List Char} {i : Nat} {s t : List Char} (h : cs.drop i = s ++ t) :
    cs.drop (i + s.length) = t := by
  rw [← List.drop_drop, h, List.drop_left]

/-- A run of text does not start with an opening brace. -/
theorem Grammar.TextRun.head_ne {next : Option Char} {s v : List Char} (h : TextRun next s v) :
    s.head? ≠ some '{' := by
  induction h with
  | nil => simp
  | cons hpiece _ ih =>
      cases hpiece with
      | char hopen => simpa using hopen
      | pair => simp
      | apostrophe => simp
      | span => simp

/-- A placeholder starts with an opening brace. -/
theorem Grammar.Placeholder.head {s : List Char} {content : Content} (h : Placeholder s content)
    (t : List Char) : (s ++ t).head? = some '{' := by
  cases h <;> rfl

/-- The first piece and the others. -/
theorem rebuiltText_cons (p : Pattern) (t : Replacements) (o : Options) (k : Nat) (e : Element)
    (elements : List Element) :
    rebuiltText p t o k (e :: elements) =
      (rebuildElement p t o k e).toList ++ rebuiltText p t o (k + 1) elements := by
  rw [rebuiltText, List.zipIdx_cons, List.flatMap_cons, rebuiltText]

/-- What the first piece says, if anything, and what the others say. -/
theorem rebuiltContents_cons (t : Replacements) (o : Options) (k : Nat) (e : Element)
    (elements : List Element) :
    rebuiltContents t o k (e :: elements) =
      (e.content.rebuilt t o k).toList ++ rebuiltContents t o (k + 1) elements := by
  rw [rebuiltContents, List.zipIdx_cons]
  cases h : e.content.rebuilt t o k <;> simp [h, rebuiltContents]

/-- A piece of text without its replacement is copied. -/
theorem rebuildElement_text_copied {p : Pattern} {t : Replacements} {o : Options} {k i : Nat}
    {s rest : List Char} {value : String} (ht : t.text.get? k = none)
    (hp : p.source.toList.drop i = s ++ rest) :
    rebuildElement p t o k ⟨.text value, i, i + s.length⟩ = String.ofList s := by
  simp only [rebuildElement, ht]
  exact slice_of_drop hp

/-- A printable placeholder is rebuilt without replacements as it is written. -/
theorem rebuildElement_printable {p : Pattern} {k i j : Nat} {c : Content} (h : c.Printable) :
    rebuildElement p .empty {} k ⟨c, i, j⟩ = c.written := by
  obtain ⟨c', hc', -, hwritten⟩ := rebuildElement_of_placeholder (p := p) (t := .empty) (o := {})
    (n := k) (e := ⟨c, i, j⟩) (placeholder_of_printable h).isPlaceholder
  rw [h.rebuilt_empty] at hc'
  cases hc'
  exact hwritten

/-! ### Elements -/

/-- The replaced texts have no apostrophe after a brace, and placeholders get contents that can be
written. -/
structure Writable (t : Replacements) (o : Options) (k : Nat) (elements : List Element) :
    Prop where
  /-- The texts can be escaped. -/
  text : ∀ entry ∈ t.text, apostropheAfterBrace entry.2.toList = false
  /-- The contents of placeholders can be written. -/
  printable : ∀ c ∈ rebuiltContents t o k elements, c.isPlaceholder = true → c.Printable

/-- What holds of all elements holds of all but the first. -/
theorem Writable.tail {t : Replacements} {o : Options} {k : Nat} {e : Element}
    {elements : List Element} (h : Writable t o k (e :: elements)) :
    Writable t o (k + 1) elements := by
  refine ⟨h.text, fun c hc => h.printable c ?_⟩
  rw [rebuiltContents_cons]
  exact List.mem_append_right _ hc

/-- The text, before which there are `j` characters, has these elements with these contents, and
rebuilding them without replacements gives the text again. -/
structure Restored (j : Nat) (text : List Char) (contents : List Content)
    (elements : List Element) : Prop where
  /-- The elements are those of the text. -/
  derived : Elements j text elements
  /-- The contents are those of the elements. -/
  contents : elements.map (·.content) = contents
  /-- Rebuilding changes nothing. -/
  fixed : ∀ (p : Pattern) (k : Nat), p.source.toList.drop j = text →
    rebuiltText p .empty {} k elements = text

/-- Nothing is restored from nothing. -/
theorem Restored.nil (j : Nat) : Restored j [] [] [] :=
  ⟨.nil, rfl, fun _ _ _ => rfl⟩

/-- A piece of text in front of a placeholder or the end. -/
theorem Restored.text {j : Nat} {s v text : List Char} {contents : List Content}
    {elements : List Element} (hs : s ≠ []) (hrun : TextRun text.head? s v)
    (htext : ∀ c ∈ text.head?, c = '{') (h : Restored (j + s.length) text contents elements) :
    Restored j (s ++ text) (.text (String.ofList v) :: contents)
      (⟨.text (String.ofList v), j, j + s.length⟩ :: elements) where
  derived := .text hs hrun htext h.derived
  contents := congrArg (_ :: ·) h.contents
  fixed := by
    intro p k hp
    rw [rebuiltText_cons, rebuildElement_text_copied rfl hp, String.toList_ofList,
      h.fixed p (k + 1) (drop_of_drop hp)]

/-- A written placeholder, whatever follows it. -/
theorem Restored.placeholder {j : Nat} {c : Content} {text : List Char} {contents : List Content}
    {elements : List Element} (hc : c.Printable)
    (h : Restored (j + c.written.toList.length) text contents elements) :
    Restored j (c.written.toList ++ text) (c :: contents)
      (⟨c, j, j + c.written.toList.length⟩ :: elements) where
  derived := .placeholder (placeholder_of_printable hc) h.derived
  contents := congrArg (_ :: ·) h.contents
  fixed := by
    intro p k hp
    rw [rebuiltText_cons, rebuildElement_printable hc, h.fixed p (k + 1) (drop_of_drop hp)]

/-- A placeholder becomes one that can be written. -/
theorem Writable.placeholder {t : Replacements} {o : Options} {i j k : Nat} {s : List Char}
    {content : Content} {elements : List Element} (h : Writable t o k (⟨content, i, j⟩ :: elements))
    (hrule : Placeholder s content) (p : Pattern) :
    ∃ c, c.Printable ∧
      rebuiltText p t o k (⟨content, i, j⟩ :: elements) =
        c.written.toList ++ rebuiltText p t o (k + 1) elements ∧
      rebuiltContents t o k (⟨content, i, j⟩ :: elements) =
        c :: rebuiltContents t o (k + 1) elements := by
  obtain ⟨c, hc, hplace, hpiece⟩ := rebuildElement_of_placeholder (p := p) (t := t) (o := o)
    (n := k) (e := ⟨content, i, j⟩) hrule.isPlaceholder
  have hcontents : rebuiltContents t o k (⟨content, i, j⟩ :: elements) =
      c :: rebuiltContents t o (k + 1) elements := by
    rw [rebuiltContents_cons, hc]
    rfl
  refine ⟨c, h.printable c ?_ hplace, ?_, hcontents⟩
  · rw [hcontents]
    exact List.mem_cons_self
  · rw [rebuiltText_cons, hpiece]

/-- Where the elements start with a placeholder or at the end, their pieces do. -/
theorem head?_rebuiltText {p : Pattern} {t : Replacements} {o : Options} {i k : Nat}
    {s : List Char} {elements : List Element} (h : Elements i s elements)
    (hs : ∀ c ∈ s.head?, c = '{') (hw : Writable t o k elements) :
    (rebuiltText p t o k elements).head? = s.head? := by
  cases h with
  | nil => rfl
  | text hne hrun =>
      obtain ⟨c, s', rfl⟩ := List.exists_cons_of_ne_nil hne
      exact absurd (congrArg some (hs c rfl)) hrun.head_ne
  | placeholder hrule =>
      obtain ⟨c, hc, htext, -⟩ := hw.placeholder hrule p
      rw [htext, (placeholder_of_printable hc).head, hrule.head]

/-- The pieces that the elements of a text become are restored with the contents that the
replacements give them. The indices of the elements start at `k`, and `j` characters come before
their pieces. -/
theorem restored_of_elements {p : Pattern} {t : Replacements} {o : Options} {i : Nat}
    {s : List Char} {elements : List Element} (h : Elements i s elements) (k j : Nat)
    (hp : p.source.toList.drop i = s) (hw : Writable t o k elements) :
    ∃ elements', Restored j (rebuiltText p t o k elements) (rebuiltContents t o k elements)
      elements' := by
  induction h generalizing k j with
  | nil => exact ⟨[], .nil j⟩
  | @text i s v rest elements hs hrun hrest helements ih =>
      -- Whether the run is still a run depends on the piece that is written after it, which starts
      -- with a brace where the old one did.
      have hhead := head?_rebuiltText (p := p) helements hrest hw.tail
      rw [← hhead] at hrun hrest
      rw [rebuiltText_cons, rebuiltContents_cons]
      cases ht : t.text.get? k with
      | none =>
          obtain ⟨elements', h⟩ := ih (k + 1) (j + s.length) (drop_of_drop hp) hw.tail
          rw [rebuildElement_text_copied ht hp, String.toList_ofList, Content.rebuilt, ht]
          exact ⟨_, h.text hs hrun hrest⟩
      | some replacement =>
          obtain ⟨elements', h⟩ :=
            ih (k + 1) (j + (escape replacement).toList.length) (drop_of_drop hp) hw.tail
          have hwritten : rebuildElement p t o k ⟨.text (String.ofList v), i, i + s.length⟩ =
              escape replacement := by
            simp only [rebuildElement, ht]
          rw [hwritten, Content.rebuilt, ht]
          by_cases hempty : replacement = ""
          · subst hempty
            exact ⟨elements', h⟩
          · have hrun' : TextRun (rebuiltText p t o (k + 1) elements).head?
                (escape replacement).toList replacement.toList := by
              refine text_run_escape (fun d hd => ?_) (hw.text _ (Entries.mem_of_get? ht))
              rw [hrest d hd]
              rfl
            have h' := h.text (toList_escape_ne_nil hempty) hrun' hrest
            rw [String.ofList_toList] at h'
            simp only [hempty, if_false]
            exact ⟨_, h'⟩
  | placeholder hrule _ ih =>
      obtain ⟨c, hc, htext, hcontents⟩ := hw.placeholder hrule p
      obtain ⟨elements', h⟩ :=
        ih (k + 1) (j + c.written.toList.length) (drop_of_drop hp) hw.tail
      rw [htext, hcontents]
      exact ⟨_, h.placeholder hc⟩

/-! ### Messages -/

/-- A rebuilt message is parsed when the branches that it gets are messages. Its elements have the
contents that the replacements give them, and without replacements it is rebuilt as it is. -/
theorem parse_rebuild {text : String} {m : Message} {t : Replacements} {o : Options}
    (h : parse text = .ok m) (hw : Writable t o 0 m.elements)
    (hbranches : ∀ c ∈ rebuiltContents t o 0 m.elements, ∀ b ∈ c.branches,
      isMessage b.text = true) :
    ∃ elements', elements'.map (·.content) = rebuiltContents t o 0 m.elements ∧
      parse (rebuild m.toPattern t o) = .ok (described (rebuild m.toPattern t o) elements'
        ((rebuiltContents t o 0 m.elements).flatMap (·.withBranches))) ∧
      rebuild ⟨rebuild m.toPattern t o, elements'⟩ .empty {} = rebuild m.toPattern t o := by
  obtain ⟨contents, hderives, hm⟩ := derives_of_parse h
  have hsource : m.source.toList.drop 0 = text.toList := by
    rw [hm]
    rfl
  obtain ⟨elements', hrestored⟩ := restored_of_elements hderives.elements 0 0 hsource hw
  rw [← toList_rebuild m.toPattern] at hrestored
  refine ⟨elements', hrestored.contents, ?_, ?_⟩
  · refine (parse_eq_ok_iff_of_elements hrestored.derived).2 ⟨?_, by rw [hrestored.contents]⟩
    intro e he b hb
    refine hbranches e.content ?_ b hb
    rw [← hrestored.contents]
    exact List.mem_map_of_mem he
  · have hfixed := hrestored.fixed ⟨rebuild m.toPattern t o, elements'⟩ 0 rfl
    rw [← String.toList_inj, toList_rebuild]
    exact hfixed

end MessageFormat
