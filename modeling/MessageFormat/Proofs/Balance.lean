import MessageFormat.Proofs.Cutting
import MessageFormat.Proofs.Derivations
import MessageFormat.Proofs.Endings
import MessageFormat.Proofs.Readers
import MessageFormat.Proofs.Scans

/-!
# Balanced messages

Counting unquoted braces and parsing agree. A text that is parsed is balanced, because placeholders
close what they open. A text that is rejected because of its braces is not balanced, and so no body
is ever rejected for that reason.
-/

namespace MessageFormat

open Grammar Place

variable {i : Nat} {s t : List Char}

/-! ### Placeholders close what they open -/

/-- Enclosed text, a closing brace, and more enclosed text. -/
theorem Grammar.Enclosed.append_close {k depth : Nat} {s t : List Char} (hs : Enclosed k s)
    (ht : Enclosed depth t) : Enclosed (depth + k + 1) (s ++ '}' :: t) := by
  induction hs with
  | nil => exact .closing ht
  | opening _ ih => exact .opening ih
  | closing _ ih => exact .closing ih
  | @piece k s v s' hpiece _ ih =>
      have hnext : s'.head?.or (some '}') = (s' ++ '}' :: t).head?.or (some '}') := by
        cases s' <;> rfl
      rw [hnext] at hpiece
      rw [List.append_assoc]
      exact .piece hpiece ih

/-- Branches are enclosed in the braces of their construct. -/
theorem Grammar.BranchList.enclosed {selector : Selector} {branches : List Branch}
    (h : BranchList selector s branches) : Enclosed 0 s := by
  induction h with
  | nil hw => exact hw.plain.enclosed
  | cons hw₁ hkey hw₂ hbody _ ih =>
      have hplain := hkey.plain.among_blanks hw₁ hw₂
      have h := hplain.enclosed_append (.opening (hbody.append_close ih))
      simpa only [List.append_assoc, List.cons_append] using h

/-- Variants are enclosed in the braces of their construct. -/
theorem Grammar.Variants.enclosed {offset : Option Int} {variants : List Branch}
    (h : Variants s offset variants) : Enclosed 0 s := by
  cases h with
  | plain h => exact h.enclosed
  | comma h => exact h.enclosed.comma
  | offset hw₁ hw₂ hw₃ hname _ h =>
      have hword := plain_of_class offset_word_chars
      have hcolon : Plain [':'] := plain_singleton (by decide)
      have hplain := ((hword.among_blanks hw₁ hw₂).append hcolon).append
        (hw₃.plain.append hname.plain)
      have henclosed := (hplain.enclosed_append h.enclosed).comma
      simpa only [List.append_assoc, List.cons_append, List.nil_append] using henclosed

/-- Options are enclosed in the braces of their construct. -/
theorem Grammar.Choices.enclosed {options : List Branch} (h : Choices s options) :
    Enclosed 0 s := by
  cases h with
  | plain h => exact h.enclosed
  | comma h => exact h.enclosed.comma

/-- What follows the name of a placeholder is enclosed in its braces. -/
theorem Grammar.Kind.enclosed {name : String} {content : Content} (h : Kind name s content) :
    Enclosed 0 s := by
  cases h with
  | typed hw₁ hname _ hw₂ => exact (hname.plain.among_blanks hw₁ hw₂).enclosed
  | styled hw₁ hname _ hw₂ hformat =>
      exact (hname.plain.among_blanks hw₁ hw₂).enclosed_append hformat.comma
  | plural hw₁ hname hw₂ h =>
      exact (hname.plain.among_blanks hw₁ hw₂).enclosed_append h.enclosed
  | ordinal hw₁ hname hw₂ h =>
      exact (hname.plain.among_blanks hw₁ hw₂).enclosed_append h.enclosed
  | select hw₁ hname hw₂ h =>
      exact (hname.plain.among_blanks hw₁ hw₂).enclosed_append h.enclosed

/-- A placeholder is enclosed text between its braces. -/
theorem Grammar.Placeholder.exists_enclosed {content : Content} (h : Placeholder s content) :
    ∃ inner, s = '{' :: (inner ++ ['}']) ∧ Enclosed 0 inner := by
  cases h with
  | simple hw₁ hname hw₂ => exact ⟨_, rfl, (hname.plain.among_blanks hw₁ hw₂).enclosed⟩
  | @kind w₁ name w₂ s content hw₁ hname hw₂ hkind =>
      refine ⟨w₁ ++ name ++ w₂ ++ ',' :: s, by simp, ?_⟩
      exact (hname.plain.among_blanks hw₁ hw₂).enclosed_append hkind.enclosed.comma

/-! ### Bodies -/

/-- Where a body that is cut out of a text stands in it. -/
theorem Outline.exists_of_mem_bodies {body : Body} (h : body ∈ (read (before i s)).bodies) :
    ∃ s' t, s = s' ++ body.text ++ '}' :: t ∧ body.start = i + s'.length ∧ Enclosed 0 body.text := by
  obtain ⟨earlier, later, hbodies⟩ := List.append_of_mem h
  obtain ⟨s', hcut⟩ := steady i s earlier body later hbodies
  obtain ⟨t, rfl⟩ := hcut.text
  exact ⟨s', t, rfl, hcut.start, hcut.enclosed⟩

/-- All bodies that are cut out of a text are enclosed. -/
theorem Outline.enclosed_of_mem_bodies {body : Body} (h : body ∈ (read (before i s)).bodies) :
    Enclosed 0 body.text := by
  obtain ⟨-, -, -, -, henclosed⟩ := exists_of_mem_bodies h
  exact henclosed

/-! ### Texts -/

/-- Runs of text do not change the number of open braces. -/
theorem openAfter_text {depth : Nat} {v : List Char} (h : TextRun t.head? s v) :
    openAfter depth (glyphs .outside (s ++ t)) = openAfter depth (glyphs .outside t) := by
  obtain ⟨gs, hgs⟩ := h.text_glyphs
  rw [hgs.glyphs_eq, openAfter_append_of_text hgs.is_text]

/-- Placeholders close what they open. -/
theorem openAfter_placeholder {depth : Nat} {content : Content} (h : Placeholder s content) :
    openAfter depth (glyphs .outside (s ++ t)) = openAfter depth (glyphs .outside t) := by
  obtain ⟨inner, rfl, hinner⟩ := h.exists_enclosed
  rw [List.cons_append, openAfter_open_brace, List.append_assoc]
  exact openAfter_enclosed hinner depth t

/-- A text with elements is balanced. -/
theorem Grammar.Elements.balanced {elements : List Element} (h : Elements i s elements) :
    Balanced s := by
  rw [balanced_iff]
  induction h with
  | nil => rfl
  | text _ hrun _ _ ih => rw [openAfter_text hrun, ih]
  | placeholder hrule _ ih => rw [openAfter_placeholder hrule, ih]

/-- Where reading ends because of a brace, the text is not balanced. -/
theorem Outline.not_balanced_of_fault {fault : Fault}
    (h : (read (before i s)).fault = some fault) (hcause : fault.cause = .unmatchedBraces) :
    ¬ Balanced s := by
  rw [balanced_iff]
  induction i, s using level_induction with
  | nil i =>
      rw [read_nil] at h
      cases h
  | close i t =>
      rw [glyphs_cons, openAfter, if_pos ⟨rfl, rfl⟩]
      simp
  | fault i t f hresult =>
      rw [read_fault hresult] at h
      cases h
      -- The brace of the placeholder is among those that are still open at the end.
      obtain ⟨n, hn⟩ := Reading.Scans.readPlaceholder i t _ hresult hcause
      rw [openAfter_open_brace, hn]
      simp
  | placeholder i s content t hrule ih =>
      rw [read_placeholder hrule] at h
      rw [openAfter_placeholder hrule]
      exact ih h
  | text i s v t hs hrun ht ih =>
      rw [read_text hs hrun ht] at h
      rw [openAfter_text hrun]
      exact ih h

/-! ### Messages -/

/-- What is made of the elements found does not matter for a fault. -/
theorem map_eq_error_iff {r : Except Fault (List Element)} {f : List Element → List Element}
    {fault : Fault} : r.map f = .error fault ↔ r = .error fault := by
  cases r <;> simp [Except.map]

/-- Nor does it matter for the success of a reading. -/
theorem exists_map_eq_ok_iff {r : Except Fault (List Element)} {f : List Element → List Element} :
    (∃ found, r.map f = .ok found) ↔ ∃ found, r = .ok found := by
  cases r <;> simp [Except.map]

/-- Gathering fails with the first reading, or after its success with the others. -/
theorem gather_cons_eq_error_iff {r : Except Fault (List Element)}
    {l : List (Except Fault (List Element))} {fault : Fault} :
    gather (r :: l) = .error fault ↔
      r = .error fault ∨ (∃ found, r = .ok found) ∧ gather l = .error fault := by
  cases r with
  | error f => simp [gather]
  | ok part =>
      rw [gather, map_eq_error_iff]
      simp

/-- Gathering fails with the first readings, or after their success with the others. -/
theorem gather_append_eq_error_iff {l l' : List (Except Fault (List Element))} {fault : Fault} :
    gather (l ++ l') = .error fault ↔
      gather l = .error fault ∨ (∃ found, gather l = .ok found) ∧ gather l' = .error fault := by
  induction l with
  | nil => simp [gather]
  | cons r l ih =>
      cases r with
      | error f => simp [gather]
      | ok part => rw [List.cons_append, gather, gather, map_eq_error_iff, map_eq_error_iff,
          exists_map_eq_ok_iff, ih]

/-- A fault that is gathered is that of the first reading that fails, or it comes after all of
them. -/
theorem exists_of_gather_eq_error {bodies : List Body} {inside : Body → Except Fault (List Element)}
    {l : List (Except Fault (List Element))} {fault : Fault}
    (h : gather (bodies.map inside ++ l) = .error fault) :
    (∃ earlier b later, bodies = earlier ++ b :: later ∧ inside b = .error fault ∧
      ∀ b' ∈ earlier, ∃ found, inside b' = .ok found) ∨ gather l = .error fault := by
  induction bodies with
  | nil => exact .inr h
  | cons b bodies ih =>
      rcases gather_cons_eq_error_iff.1 h with hb | ⟨hok, hrest⟩
      · exact .inl ⟨[], b, bodies, rfl, hb, by simp⟩
      · rcases ih hrest with ⟨earlier, b', later, rfl, hb', hearlier⟩ | hl
        · exact .inl ⟨b :: earlier, b', later, rfl, hb', List.forall_mem_cons.2 ⟨hok, hearlier⟩⟩
        · exact .inr hl

/-- The walk through an outline fails in the bodies of the first piece, or after their success in the
others. -/
theorem Outline.elementsWith_cons_eq_error_iff {piece : Piece} {o : Outline}
    {inside : Body → Except Fault (List Element)} {fault : Fault} :
    (o.cons piece).elementsWith inside = .error fault ↔
      gather (piece.bodies.map inside) = .error fault ∨
        (∃ found, gather (piece.bodies.map inside) = .ok found) ∧
          o.elementsWith inside = .error fault := by
  refine Iff.trans gather_cons_eq_error_iff ?_
  rw [map_eq_error_iff, exists_map_eq_ok_iff]
  rfl

/-- The walk through an outline fails at the first of its bodies that fails, and after all of them
with the fault of the outline. -/
theorem Outline.elementsWith_eq_error_iff (o : Outline)
    (inside : Body → Except Fault (List Element)) (fault : Fault) :
    o.elementsWith inside = .error fault ↔
      gather (o.bodies.map inside ++ (o.fault.map .error).toList) = .error fault := by
  obtain ⟨pieces, pending, f⟩ := o
  induction pieces with
  | nil => rfl
  | cons piece pieces ih =>
      show ((Outline.mk pieces pending f).cons piece).elementsWith inside = _ ↔
        gather (((Outline.mk pieces pending f).cons piece).bodies.map inside ++ _) = _
      rw [elementsWith_cons_eq_error_iff, ih, bodies_cons, List.map_append, List.append_assoc]
      exact gather_append_eq_error_iff.symm

/-- The fault of a text is that of the first body that fails, at its place in the text, or after
all bodies that of the outline. -/
theorem fault_of_allElements {text : List Char} {fault : Fault}
    (h : allElements text = .error fault) :
    (Outline.ofChars text).fault = some fault ∨
      ∃ earlier b later f, (Outline.ofChars text).bodies = earlier ++ b :: later ∧
        (∀ b' ∈ earlier, ∃ found, allElements b'.text = .ok found) ∧
        allElements b.text = .error f ∧ fault = f.shift b.start := by
  rw [allElements_eq, Outline.elementsWith_eq_error_iff] at h
  rcases exists_of_gather_eq_error h with ⟨earlier, b, later, hbodies, hb, hearlier⟩ | hl
  · refine .inr ⟨earlier, b, later, ?_⟩
    rw [Body.elements] at hb
    cases hall : allElements b.text with
    | ok found =>
        rw [hall] at hb
        cases hb
    | error f =>
        rw [hall] at hb
        cases hb
        refine ⟨f, hbodies, fun b' hb' => ?_, rfl, rfl⟩
        obtain ⟨found, hfound⟩ := hearlier b' hb'
        exact ⟨found, Body.elements_eq_ok_iff.1 hfound⟩
  · cases hfault : (Outline.ofChars text).fault with
    | none =>
        rw [hfault] at hl
        cases hl
    | some f =>
        rw [hfault] at hl
        cases hl
        exact .inl rfl

/-- A text that is rejected because of its braces is not balanced. -/
theorem not_balanced_of_allElements {text : List Char} {fault : Fault}
    (h : allElements text = .error fault) (hcause : fault.cause = .unmatchedBraces) :
    ¬ Balanced text := by
  rcases fault_of_allElements h with hfault | ⟨earlier, b, later, f, hbodies, -, hf, rfl⟩
  · exact Outline.not_balanced_of_fault hfault hcause
  -- A body with such a fault would not be balanced, but the outline has cut it out as enclosed.
  · have hb : b ∈ (Outline.ofChars text).bodies := by
      rw [hbodies]
      exact List.mem_append_right _ List.mem_cons_self
    have hlt := Outline.length_text_lt hb
    have hbalanced := (Outline.enclosed_of_mem_bodies hb).balanced
    exact absurd hbalanced (not_balanced_of_allElements hf hcause)
  termination_by text.length

/-- A body that a cursor reads is enclosed. -/
theorem Cursor.enclosed_of_readBalanced {c c' : Cursor} {body : String}
    (h : c.readBalanced = (some body, c')) : Enclosed 0 body.toList := by
  cases hclosing : closing 0 (glyphs .outside c.rest) with
  | none =>
      rw [readBalanced_of_closing_eq_none hclosing] at h
      cases h
  | some found =>
      rw [readBalanced_of_closing hclosing] at h
      cases h
      obtain ⟨b, t, -, hb, rfl, -⟩ := enclosed_of_closing hclosing
      rwa [String.toList_ofList]

/-- Enclosed text is never rejected because of its braces. -/
theorem Grammar.Enclosed.cause_ne (hs : Enclosed 0 s) {e : ParseError}
    (h : parse (String.ofList s) = .error e) : e.fault.cause ≠ .unmatchedBraces := by
  intro hcause
  rw [parse, String.toList_ofList] at h
  split at h
  · next fault hfault =>
    cases h
    exact not_balanced_of_allElements hfault hcause hs.balanced
  · cases h

/-- Counting braces and parsing agree: what is parsed is balanced, and what is rejected because of
its braces is not. A body is never rejected for that reason, whether a cursor or the outline of a
text at any depth has cut it out. -/
theorem balanced_of_parse (text : String) :
    (∀ m, parse text = .ok m → Balanced text.toList) ∧
      (∀ e, parse text = .error e → e.fault.cause = .unmatchedBraces → ¬ Balanced text.toList) ∧
      (∀ (c c' : Cursor) (body : String), c.readBalanced = (some body, c') →
        ∀ e, parse body = .error e → e.fault.cause ≠ .unmatchedBraces) ∧
      ∀ body ∈ (Outline.ofChars text.toList).bodies,
        ∀ e, parse (String.ofList body.text) = .error e → e.fault.cause ≠ .unmatchedBraces := by
  refine ⟨?_, ?_, ?_, ?_⟩
  · intro m h
    exact (elements_of_parse h).balanced
  · intro e h hcause
    rw [parse] at h
    split at h
    · next fault hfault =>
      cases h
      exact not_balanced_of_allElements hfault hcause
    · cases h
  · intro c c' body hbody e h
    have henclosed := Cursor.enclosed_of_readBalanced hbody
    exact henclosed.cause_ne (by rwa [String.ofList_toList])
  · intro body hbody e h
    exact (Outline.enclosed_of_mem_bodies hbody).cause_ne h

end MessageFormat
