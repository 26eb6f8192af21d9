import MessageFormat.Proofs.Branching

/-!
# Reading constructs

Plurals and selects are read as the grammar has them, from the word that names them to their closing
brace. The reader of an offset goes back when the word `offset` turns out to be a category, and so
no variant is lost (`readOffset_of_branch_list`).
-/

namespace MessageFormat

open Grammar Place

variable {i : Nat} {s t cs : List Char}

/-! ### Offsets -/

/-- A blank or another character outside names ends a name. -/
theorem name_ends_at {w : List Char} {d : Char} (hw : Blank w) (hd : isNameChar d = false)
    (t : List Char) : ∀ c ∈ (w ++ d :: t).head?, isNameChar c = false := by
  intro c hc
  cases w with
  | nil =>
      obtain rfl := Option.some.inj hc
      exact hd
  | cons b w =>
      obtain rfl := Option.some.inj hc
      cases hname : isNameChar b with
      | false => rfl
      | true =>
          have hblank := isBlank_of_name_char hname
          rw [hw b (by simp)] at hblank
          cases hblank

/-- The word `offset` is a name. -/
theorem offset_word_chars : ∀ c ∈ "offset".toList, isNameChar c = true :=
  List.all_eq_true.1 rfl

/-- The word `offset` does not start with a blank. -/
theorem offset_word_head (w t : List Char) :
    ∀ c ∈ ("offset".toList ++ w ++ t).head?, Text.isBlank c = false :=
  forall_head?_cons (c := 'o') rfl

/-- A name is not followed by blanks that the reader of the name after it would miss. -/
theorem Grammar.Name.isBlank_head {rest : List Char} (h : Name s rest) (t : List Char) :
    ∀ c ∈ (s ++ t).head?, Text.isBlank c = false := by
  obtain ⟨d, s', rfl⟩ := List.exists_cons_of_ne_nil h.ne_nil
  intro c hc
  obtain rfl := Option.some.inj hc
  exact isBlank_of_name_char (h.chars d (by simp))

/-- An offset of the grammar is read. -/
theorem readOffset_of_integer {w₁ w₂ number : List Char} {offset : Int} (hw₁ : Blank w₁)
    (hw₂ : Blank w₂) (hname : Name number t) (hnumber : Integer number offset) :
    readOffset (before i ("offset".toList ++ w₁ ++ ':' :: (w₂ ++ number ++ t))) =
      .ok (some offset,
        before (i + ("offset".toList ++ w₁ ++ ':' :: (w₂ ++ number)).length) t) := by
  have hend := name_ends_at hw₁ (d := ':') (by decide) (w₂ ++ number ++ t)
  have hword := name_before (i := i) offset_word_chars hend
  have hafter := advance_before (i := i) (t := w₁ ++ ':' :: (w₂ ++ number ++ t))
    (plain_of_class offset_word_chars)
  have hcolon := skipBlanks_before (i := i + "offset".toList.length)
    (t := ':' :: (w₂ ++ number ++ t)) hw₁ (forall_head?_cons rfl)
  have hskip := skipBlanks_before (i := i + "offset".toList.length + w₁.length + 1)
    (t := number ++ t) hw₂ (hname.isBlank_head t)
  have hread := (readInteger_eq_some_iff hname.chars).2 hnumber
  rw [List.append_assoc, readOffset]
  simp only [hword, hafter, hcolon, isAt_before_cons]
  rw [if_pos (by simp), advance_before_cons, List.append_assoc, hskip,
    name_before hname.chars hname.maximal, hread]
  simp only [advance_before hname.plain, Except.ok.injEq, Prod.mk.injEq, true_and]
  refine before_congr ?_ _
  simp only [List.length_append, List.length_cons]
  omega

/-- Without the word `offset` and a colon there is no offset. -/
theorem readOffset_of_not {p : Place}
    (h : ¬ (p.name = "offset".toList ∧ (p.advance p.name.length).skipBlanks.isAt ':' = true)) :
    readOffset p = .ok (none, p) := by
  rw [readOffset]
  exact if_neg h

/-- A text that does not start with a name character does not start with the word `offset`. -/
theorem name_ne_offset_word (hs : ∀ c ∈ s.head?, isNameChar c = false) :
    (before i s).name ≠ "offset".toList := by
  intro heq
  have hempty := name_before (i := i) (s := []) (t := s) (by simp) hs
  rw [List.nil_append, heq] at hempty
  exact absurd hempty (by decide)

/-- A category before its brace is no offset, even if it is called `offset`. -/
theorem readOffset_of_key {key w : List Char} (hkey : Key .category key (w ++ ['{']))
    (hw : Blank w) :
    readOffset (before i (key ++ (w ++ '{' :: t))) =
      .ok (none, before i (key ++ (w ++ '{' :: t))) := by
  apply readOffset_of_not
  rintro ⟨hword, hcolon⟩
  cases hkey with
  | name hname =>
      rw [name_before hname.chars (name_ends_at hw (by decide) t), advance_before hname.plain,
        skipBlanks_before hw (forall_head?_cons rfl), isAt_before_cons] at hcolon
      exact absurd hcolon (by decide)
  | exact hname => exact name_ne_offset_word (forall_head?_cons rfl) hword

/-- Before branches there is no offset. -/
theorem readOffset_of_branch_list {variants : List Branch}
    (h : BranchList .category s variants)
    (hs : ∀ c ∈ (s ++ '}' :: t).head?, Text.isBlank c = false) :
    readOffset (before i (s ++ '}' :: t)) = .ok (none, before i (s ++ '}' :: t)) := by
  have hnil : ∀ {w u : List Char}, Blank w → s = w ++ u → w = [] := by
    rintro w u hw rfl
    cases w with
    | nil => rfl
    | cons c w =>
        have hblank := hs c (by simp)
        rw [hw c (by simp)] at hblank
        cases hblank
  cases h with
  | nil hw =>
      obtain rfl := hnil hw (List.append_nil _).symm
      refine readOffset_of_not fun h => ?_
      exact name_ne_offset_word (forall_head?_cons rfl) h.1
  | @cons w₁ key w₂ body s variants hw₁ hkey hw₂ hbody hrest =>
      obtain rfl := hnil hw₁ (by simp only [List.append_assoc]; rfl)
      have htext : [] ++ key ++ w₂ ++ '{' :: body ++ '}' :: s ++ '}' :: t =
          key ++ (w₂ ++ '{' :: (body ++ '}' :: (s ++ '}' :: t))) := by simp
      rw [htext]
      exact readOffset_of_key hkey hw₂

/-- What is read of an offset: nothing, or an offset of the grammar. -/
theorem offset_of_readOffset {offset : Option Int} {q : Place}
    (h : readOffset (before i cs) = .ok (offset, q)) :
    (offset = none ∧ q = before i cs) ∨
      ∃ w₁ w₂ number rest n, cs = "offset".toList ++ w₁ ++ ':' :: (w₂ ++ number ++ rest) ∧
        Blank w₁ ∧ Blank w₂ ∧ Name number rest ∧ Integer number n ∧ offset = some n ∧
        q = before (i + ("offset".toList ++ w₁ ++ ':' :: (w₂ ++ number)).length) rest := by
  obtain ⟨word, rest, rfl, hword, hrest⟩ := exists_class_run isNameChar cs
  obtain ⟨w₁, rest, rfl, hw₁, hrest₁⟩ := exists_blank_run rest
  have hread := h
  rw [readOffset] at h
  simp only [name_before hword hrest, advance_before (plain_of_class hword),
    skipBlanks_before hw₁ hrest₁] at h
  split at h
  · next hoffset =>
    obtain ⟨rfl, hcolon⟩ := hoffset
    obtain ⟨rest, rfl⟩ := eq_cons_of_isAt hcolon
    obtain ⟨w₂, rest, rfl, hw₂, hrest₂⟩ := exists_blank_run rest
    obtain ⟨number, rest, rfl, hnumber, hrest₃⟩ := exists_class_run isNameChar rest
    rw [advance_before_cons, skipBlanks_before hw₂ hrest₂,
      name_before hnumber hrest₃] at h
    split at h
    · cases h
    · next n hn =>
      have hinteger := (readInteger_eq_some_iff hnumber).1 hn
      have hname : Name number rest := by
        refine ⟨?_, hnumber, hrest₃⟩
        rintro rfl
        have hempty : Text.readInteger [] = none := by decide
        rw [hempty] at hn
        cases hn
      -- The stretch is an offset of the grammar, so it is known where the reader stopped.
      rw [← List.append_assoc, ← List.append_assoc, readOffset_of_integer hw₁ hw₂ hname hinteger]
        at hread
      cases hread
      exact .inr ⟨w₁, w₂, number, rest, n, by simp, hw₁, hw₂, hname, hinteger, rfl, rfl⟩
  · cases h
    exact .inl ⟨rfl, rfl⟩

/-! ### Plurals and selects -/

/-- A construct whose branches are read is read. -/
theorem Reading.result_of_branches {selector : Selector} {branches : List Branch} {p : Place}
    {make : List Branch → Content} {q : Place}
    (hlist : (Branches.read selector p).toList = branches)
    (hfinish : (Branches.read selector p).finish = .ok q) :
    (Reading.ofBranches (Branches.read selector p) make).result = .ok (make branches, q) := by
  rw [Reading.ofBranches, hfinish, hlist]
  rfl

/-- The branches of a construct that is read were read. -/
theorem Reading.branches_of_result {branches : Branches} {make : List Branch → Content}
    {content : Content} {q : Place}
    (h : (Reading.ofBranches branches make).result = .ok (content, q)) :
    branches.finish = .ok q ∧ content = make branches.toList := by
  rw [Reading.ofBranches] at h
  cases hfinish : branches.finish with
  | error fault =>
      rw [hfinish] at h
      cases h
  | ok after =>
      rw [hfinish] at h
      cases h
      exact ⟨rfl, rfl⟩

/-- Branches start with a blank or a selector, or else the construct ends. -/
theorem Grammar.BranchList.head {selector : Selector} {branches : List Branch} {c : Char}
    (h : BranchList selector s branches) (hc : (s ++ '}' :: t).head? = some c) :
    Text.isBlank c = true ∨ (isNameChar c = true ∨ c = '=') ∨ c = '}' := by
  cases h with
  | nil hw =>
      cases s with
      | nil =>
          obtain rfl := Option.some.inj hc
          exact .inr (.inr rfl)
      | cons d s =>
          obtain rfl := Option.some.inj hc
          exact .inl (hw d (by simp))
  | @cons w₁ key _ _ _ _ hw₁ hkey =>
      cases w₁ with
      | nil =>
          obtain ⟨d, key', rfl, hd⟩ := hkey.head
          obtain rfl := Option.some.inj hc
          exact .inr (.inl hd)
      | cons d w₁ =>
          obtain rfl := Option.some.inj hc
          exact .inl (hw₁ d (by simp))

/-- Branches do not start with a comma. -/
theorem Grammar.BranchList.isAt_comma {selector : Selector} {branches : List Branch}
    (h : BranchList selector s branches) :
    (before i (s ++ '}' :: t)).isAt ',' = false := by
  rw [← Bool.not_eq_true]
  intro hcomma
  obtain ⟨t', heq⟩ := eq_cons_of_isAt hcomma
  exact absurd (h.head (c := ',') (by rw [heq]; rfl)) (by decide)

/-- After its comma and blanks a plural may have an offset, and then it has variants. -/
theorem readPlural_comma (make : Option Int → List Branch → Content) {w : List Char} (hw : Blank w)
    (ht : ∀ c ∈ t.head?, Text.isBlank c = false) :
    readPlural make (before i (',' :: w ++ t)) =
      match readOffset (before (i + (',' :: w).length) t) with
      | .error fault => .ofExcept (.error fault)
      | .ok (offset, after) => .ofBranches (.read .category after) (make offset) := by
  have hskip : (before (i + 1) (w ++ t)).skipBlanks = before (i + (',' :: w).length) t := by
    rw [skipBlanks_before hw ht]
    exact before_congr (by rw [List.length_cons]; omega) t
  rw [readPlural, List.cons_append, isAt_before_cons, if_pos (by decide), advance_before_cons]
  exact hskip ▸ rfl

/-- The variants of the grammar are read. -/
theorem readPlural_of_variants {make : Option Int → List Branch → Content} {offset : Option Int}
    {variants : List Branch} (h : Variants s offset variants) :
    (readPlural make (before i (s ++ '}' :: t))).result =
      .ok (make offset variants, before (i + s.length + 1) t) := by
  cases h with
  | plain h =>
      obtain ⟨hlist, hfinish⟩ := Branches.read_of_branch_list h i t
      rw [readPlural, h.isAt_comma]
      exact Reading.result_of_branches hlist hfinish
  | @comma s _ h =>
      obtain ⟨w, s', rfl, hw, hlist, hhead⟩ := h.exists_blank_append
      have htext : ',' :: (w ++ s') ++ '}' :: t = ',' :: w ++ (s' ++ '}' :: t) := by simp
      obtain ⟨hlist', hfinish⟩ := Branches.read_of_branch_list hlist (i + (',' :: w).length) t
      rw [htext, readPlural_comma make hw (hhead t), readOffset_of_branch_list hlist (hhead t)]
      refine (Reading.result_of_branches hlist' hfinish).trans ?_
      refine ok_before_congr _ ?_ t
      simp only [List.length_append, List.length_cons]
      omega
  | @offset w₁ w₂ w₃ number offset s _ hw₁ hw₂ hw₃ hname hnumber h =>
      have htext : ',' :: (w₁ ++ "offset".toList ++ w₂ ++ ':' :: (w₃ ++ number ++ s)) ++ '}' :: t =
          ',' :: w₁ ++ ("offset".toList ++ w₂ ++ ':' :: (w₃ ++ number ++ (s ++ '}' :: t))) := by
        simp only [List.cons_append, List.append_assoc]
      have hread := readOffset_of_integer (i := i + (',' :: w₁).length) (t := s ++ '}' :: t) hw₂ hw₃
        (hname.before_close rfl) hnumber
      obtain ⟨hlist, hfinish⟩ := Branches.read_of_branch_list h (i + (',' :: w₁).length +
        ("offset".toList ++ w₂ ++ ':' :: (w₃ ++ number)).length) t
      rw [htext, readPlural_comma make hw₁ (offset_word_head w₂ _), hread]
      refine (Reading.result_of_branches hlist hfinish).trans ?_
      refine ok_before_congr _ ?_ t
      simp only [List.length_append, List.length_cons]
      omega

/-- A plural that is read has variants of the grammar. -/
theorem variants_of_readPlural {make : Option Int → List Branch → Content} {content : Content}
    {q : Place} (h : (readPlural make (before i cs)).result = .ok (content, q)) :
    ∃ s t offset variants, cs = s ++ '}' :: t ∧ Variants s offset variants ∧
      content = make offset variants ∧ q = before (i + s.length + 1) t := by
  rw [readPlural] at h
  split at h
  · next hcomma =>
    obtain ⟨rest, rfl⟩ := eq_cons_of_isAt hcomma
    obtain ⟨w, rest, rfl, hw, hrest⟩ := exists_blank_run rest
    rw [advance_before_cons, skipBlanks_before hw hrest] at h
    split at h
    · cases h
    · next offset after hoffset =>
      obtain ⟨hfinish, rfl⟩ := Reading.branches_of_result h
      rcases offset_of_readOffset hoffset with ⟨rfl, rfl⟩ |
        ⟨w₁, w₂, number, rest', n, rfl, hw₁, hw₂, hname, hnumber, rfl, rfl⟩
      · obtain ⟨s, t, rfl, hlist, rfl⟩ := Branches.branch_list_of_read hfinish _ _ rfl
        refine ⟨',' :: (w ++ s), t, none, _, by simp, .comma (hlist.blank_append hw), rfl, ?_⟩
        refine before_congr ?_ _
        simp only [List.length_append, List.length_cons]
        omega
      · obtain ⟨s, t, rfl, hlist, rfl⟩ := Branches.branch_list_of_read hfinish _ _ rfl
        refine ⟨_, t, some n, _, ?_, .offset hw hw₁ hw₂ hname.of_append hnumber hlist, rfl, ?_⟩
        · simp only [List.cons_append, List.append_assoc]
        · refine before_congr ?_ _
          simp only [List.length_append, List.length_cons]
          omega
  · obtain ⟨hfinish, rfl⟩ := Reading.branches_of_result h
    obtain ⟨s, t, rfl, hlist, rfl⟩ := Branches.branch_list_of_read hfinish _ _ rfl
    exact ⟨s, t, none, _, rfl, .plain hlist, rfl, rfl⟩

/-- The options of the grammar are read. -/
theorem readSelect_of_choices {name : List Char} {options : List Branch}
    (h : Choices s options) :
    (readSelect name (before i (s ++ '}' :: t))).result =
      .ok (.select (String.ofList name) options, before (i + s.length + 1) t) := by
  cases h with
  | plain h =>
      obtain ⟨hlist, hfinish⟩ := Branches.read_of_branch_list h i t
      rw [readSelect, h.isAt_comma]
      exact Reading.result_of_branches hlist hfinish
  | @comma s _ h =>
      obtain ⟨hlist, hfinish⟩ := Branches.read_of_branch_list h (i + 1) t
      rw [readSelect, List.cons_append, isAt_before_cons, if_pos (by decide),
        advance_before_cons]
      refine (Reading.result_of_branches hlist hfinish).trans ?_
      refine ok_before_congr _ ?_ t
      simp only [List.length_cons]
      omega

/-- A select that is read has options of the grammar. -/
theorem choices_of_readSelect {name : List Char} {content : Content} {q : Place}
    (h : (readSelect name (before i cs)).result = .ok (content, q)) :
    ∃ s t options, cs = s ++ '}' :: t ∧ Choices s options ∧
      content = .select (String.ofList name) options ∧ q = before (i + s.length + 1) t := by
  rw [readSelect] at h
  obtain ⟨hfinish, rfl⟩ := Reading.branches_of_result h
  split at hfinish
  · next hcomma =>
    obtain ⟨rest, rfl⟩ := eq_cons_of_isAt hcomma
    rw [advance_before_cons] at hfinish
    obtain ⟨s, t, rfl, hlist, rfl⟩ := Branches.branch_list_of_read hfinish _ _ rfl
    refine ⟨',' :: s, t, _, rfl, .comma hlist, ?_, ?_⟩
    · rw [if_pos hcomma, advance_before_cons]
    · refine before_congr ?_ _
      simp only [List.length_cons]
      omega
  · next hcomma =>
    obtain ⟨s, t, rfl, hlist, rfl⟩ := Branches.branch_list_of_read hfinish _ _ rfl
    refine ⟨s, t, _, rfl, .plain hlist, ?_, rfl⟩
    rw [if_neg hcomma]

end MessageFormat
