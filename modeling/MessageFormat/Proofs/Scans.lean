import MessageFormat.Proofs.Outlines
import MessageFormat.Proofs.Scanning

/-!
# Readers and the scan

Where a reader misses a closing brace, the scan still has an open one at the end of the text.
`Reading.Scans` says so of a reading, and there is one lemma on it for each reader.
-/

namespace MessageFormat

open Grammar Place

variable {i : Nat} {s t cs : List Char}

/-! ### Branches -/

/-- When a selector is not read, it is missing. -/
theorem Selector.cause_of_read {selector : Selector} {p : Place} {fault : Fault}
    (h : selector.read p = .error fault) : fault.cause = selector.missing := by
  rw [Selector.read] at h
  dsimp only at h
  split at h
  · split at h <;> cases h
    rfl
  · split at h <;> cases h
    rfl

/-- Where the reader of branches misses a brace, the construct is not closed. -/
theorem Branches.unclosed_of_read {selector : Selector} {p : Place} {fault : Fault}
    (h : (Branches.read selector p).finish = .error fault)
    (hcause : fault.cause = .unmatchedBraces) :
    ∀ i cs, p = before i cs → Unclosed cs := by
  fun_induction Branches.read selector p with
  | case1 p here hend =>
      rintro i cs rfl
      obtain ⟨w, rest, rfl, hw, hrest⟩ := exists_blank_run cs
      have hskip : here = _ := skipBlanks_before hw hrest
      rw [hskip, rest_before, glyphs_eq_nil_iff] at hend
      subst hend
      exact unclosed_nil.plain_append hw.plain
  | case2 => cases h
  | case3 p here hne hclose f hread =>
      cases h
      rw [Selector.cause_of_read hread] at hcause
      cases selector <;> cases hcause
  | case4 p here hne hclose key afterKey hread brace hbrace hbody =>
      rintro i cs rfl
      obtain ⟨w, rest, rfl, hw, hrest⟩ := exists_blank_run cs
      have hskip : here = _ := skipBlanks_before hw hrest
      rw [hskip] at hread
      obtain ⟨rest, rfl, hkey, rfl⟩ := Selector.key_of_read hread
      obtain ⟨w', rest, rfl, hw', hrest'⟩ := exists_blank_run rest
      have hskip' : brace = _ := skipBlanks_before hw' hrest'
      rw [hskip'] at hbrace hbody
      obtain ⟨rest, rfl⟩ := eq_cons_of_isAt hbrace
      rw [advance_before_cons] at hbody
      -- The body is not closed, nor is the brace before it or anything that is open outside.
      exact ((unclosed_of_body? hbody).open_brace.plain_append hw'.plain).plain_append hkey.plain
        |>.plain_append hw.plain
  | case5 p here hne hclose key afterKey hread brace hbrace body after hbody hlt others ih =>
      rintro i cs rfl
      obtain ⟨w, w', rest, rfl, hw, hkey, hw', henclosed, -, rfl⟩ :=
        Branches.branch_of_read hread hbrace hbody
      -- A finished branch has closed what it opened, so the brace is missing after it.
      have hrest := (ih h _ _ rfl).body_append henclosed
      have hplain := hkey.plain.among_blanks hw hw'
      simpa only [List.append_assoc, List.cons_append] using hrest.plain_append hplain
  | case6 p here hne hclose key afterKey hread brace hbrace =>
      cases h
      cases selector <;> cases hcause

/-- When an offset is not read, its number is bad. -/
theorem cause_of_readOffset {p : Place} {fault : Fault} (h : readOffset p = .error fault) :
    fault.cause = .badOffset := by
  rw [readOffset] at h
  dsimp only at h
  split at h
  · split at h <;> cases h
    rfl
  · cases h

/-! ### Readings -/

/-- A reading of the text agrees with the scan of it: when it misses a closing brace, there is
none. -/
def Reading.Scans (r : Reading) (text : List Char) : Prop :=
  ∀ fault, r.result = .error fault → fault.cause = .unmatchedBraces → Unclosed text

namespace Reading.Scans

variable {r : Reading}

/-- Plain text in front does not matter. -/
theorem plain_append (hs : Plain s) (h : r.Scans t) : r.Scans (s ++ t) :=
  fun fault hfault hcause => (h fault hfault hcause).plain_append hs

/-- A comma in front does not matter. -/
theorem comma (h : r.Scans t) : r.Scans (',' :: t) :=
  h.plain_append (plain_singleton (c := ',') (by decide))

/-- A reading that succeeds misses no brace. -/
theorem ok (content : Content) (q : Place) : (Reading.ofExcept (.ok (content, q))).Scans t := by
  rintro fault ⟨⟩

/-- A fault of another kind misses no brace. -/
theorem error {fault : Fault} (h : fault.cause ≠ .unmatchedBraces) :
    (Reading.ofExcept (.error fault)).Scans t := by
  intro f hf hcause
  cases hf
  exact absurd hcause h

/-- A fault because of a missing brace agrees with the scan when the text is unclosed. -/
theorem error_of_unclosed (fault : Fault) (h : Unclosed t) :
    (Reading.ofExcept (.error fault)).Scans t :=
  fun _ _ _ => h

/-- The branches of a construct agree with the scan. -/
theorem ofBranches (selector : Selector) (make : List Branch → Content) (i : Nat)
    (cs : List Char) :
    (Reading.ofBranches (.read selector (before i cs)) make).Scans cs := by
  intro fault h hcause
  rw [Reading.ofBranches] at h
  cases hfinish : (Branches.read selector (before i cs)).finish with
  | ok after =>
      rw [hfinish] at h
      cases h
  | error f =>
      rw [hfinish] at h
      cases h
      exact Branches.unclosed_of_read hfinish hcause _ _ rfl

/-- The variants of a plural agree with the scan. -/
theorem readPlural (make : Option Int → List Branch → Content) (i : Nat) (cs : List Char) :
    (readPlural make (before i cs)).Scans cs := by
  rw [MessageFormat.readPlural]
  split
  · next hcomma =>
    obtain ⟨rest, rfl⟩ := eq_cons_of_isAt hcomma
    obtain ⟨w, rest, rfl, hw, hrest⟩ := exists_blank_run rest
    rw [advance_before_cons, skipBlanks_before hw hrest]
    refine (Reading.Scans.plain_append hw.plain ?_).comma
    split
    · next hoffset => exact error (by rw [cause_of_readOffset hoffset]; decide)
    · next offset after hoffset =>
      rcases offset_of_readOffset hoffset with ⟨rfl, rfl⟩ |
        ⟨w₁, w₂, number, rest', n, rfl, hw₁, hw₂, hname, hnumber, rfl, rfl⟩
      · exact ofBranches _ _ _ _
      · have hword := plain_of_class offset_word_chars
        have hcolon : Plain [':'] := plain_singleton (by decide)
        have hplain :=
          (((hword.append hw₁.plain).append hcolon).append hw₂.plain).append hname.plain
        have htext : "offset".toList ++ w₁ ++ ':' :: (w₂ ++ number ++ rest') =
            ("offset".toList ++ w₁ ++ [':'] ++ w₂ ++ number) ++ rest' := by
          simp only [List.append_assoc, List.cons_append, List.nil_append]
        rw [htext]
        exact (ofBranches _ _ _ _).plain_append hplain
  · exact ofBranches _ _ _ _

/-- The options of a select agree with the scan. -/
theorem readSelect (name : List Char) (i : Nat) (cs : List Char) :
    (readSelect name (before i cs)).Scans cs := by
  rw [MessageFormat.readSelect]
  split
  · next hcomma =>
    obtain ⟨rest, rfl⟩ := eq_cons_of_isAt hcomma
    rw [advance_before_cons]
    exact (ofBranches _ _ _ _).comma
  · exact ofBranches _ _ _ _

/-- The rest of an argument agrees with the scan. -/
theorem readTyped (name type : List Char) (i : Nat) (cs : List Char) :
    (Reading.ofExcept (readTyped name type (before i cs))).Scans cs := by
  rw [MessageFormat.readTyped]
  dsimp only
  split
  · next hcomma =>
    obtain ⟨rest, rfl⟩ := eq_cons_of_isAt hcomma
    obtain ⟨w, rest, rfl, hw, hrest⟩ := exists_blank_run rest
    rw [advance_before_cons, skipBlanks_before hw hrest]
    refine (Reading.Scans.plain_append hw.plain ?_).comma
    cases hclosing : closing 0 (glyphs .outside rest) with
    | none =>
        split
        · exact error_of_unclosed _ (openAfter_of_closing hclosing)
        · exact ok _ _
    | some found =>
        obtain ⟨body, after⟩ := found
        rw [rest_before, upTo_of_closing hclosing, advance, rest_before,
          append_of_closing hclosing, List.drop_left, if_neg (by simp)]
        exact ok _ _
  · split
    · next hend =>
      rw [rest_before, glyphs_eq_nil_iff] at hend
      subst hend
      exact error_of_unclosed _ unclosed_nil
    · split
      · exact ok _ _
      · exact error (by simp)

/-- What follows the name of a placeholder agrees with the scan. -/
theorem readKind (name : List Char) (i : Nat) (cs : List Char) :
    (readKind name (before i cs)).Scans cs := by
  rcases readKind_cases name i cs with ⟨position, hfault⟩ |
    ⟨w₁, word, w₂, rest, rfl, hw₁, hname, hw₂, hrest⟩
  · rw [hfault]
    exact error (by simp)
  rw [readKind_before name hw₁ hname hw₂ hrest]
  refine plain_append hw₁.plain (plain_append hname.plain (plain_append hw₂.plain ?_))
  dsimp only
  split
  · exact readPlural _ _ _
  split
  · exact readPlural _ _ _
  split
  · exact readSelect _ _ _
  · exact readTyped _ _ _ _

/-- A placeholder agrees with the scan of the text after its opening brace. -/
theorem readPlaceholder (i : Nat) (cs : List Char) :
    (readPlaceholder (before i ('{' :: cs))).Scans cs := by
  rcases readPlaceholder_cases i cs with hfault | ⟨hplain, position, hfault⟩ |
    ⟨w₁, name, w₂, c, rest, rfl, hw₁, hname, hw₂, hc⟩
  · rw [hfault]
    exact error (by simp)
  · rw [hfault]
    exact error_of_unclosed _ hplain.unclosed
  rw [readPlaceholder_before hw₁ hname hw₂ hc]
  refine plain_append hw₁.plain (plain_append hname.plain (plain_append hw₂.plain ?_))
  dsimp only
  split
  · exact ok _ _
  split
  · next hcomma =>
    subst hcomma
    rw [advance_before_cons]
    exact (readKind _ _ _).comma
  · exact error (by simp)

end Reading.Scans

end MessageFormat
