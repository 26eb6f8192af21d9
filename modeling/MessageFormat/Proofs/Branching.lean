import MessageFormat.Proofs.Integers
import MessageFormat.Proofs.Places

/-!
# Reading branches

The branches of a construct are read as the grammar has them, up to the brace that closes the
construct. Each reader has a lemma that it accepts what its rule derives and a lemma that it accepts
nothing else. What a reader leaves unread is the text after the closing brace.
-/

namespace MessageFormat

open Grammar Place

variable {i : Nat} {s t cs : List Char}

/-! ### Words before a brace -/

/-- Whether a name ends depends on the next character only. -/
theorem Grammar.Name.congr {rest rest' : List Char} (h : Name s rest)
    (hhead : rest'.head? = rest.head?) : Name s rest' :=
  ⟨h.ne_nil, h.chars, by rw [hhead]; exact h.maximal⟩

/-- A name ends in front of a text if it ends in front of another one that starts in the same
way. -/
theorem Grammar.Name.congr_append {w rest rest' : List Char} (h : Name s (w ++ rest))
    (hhead : rest'.head? = rest.head?) : Name s (w ++ rest') := by
  refine h.congr ?_
  rw [List.head?_append, List.head?_append, hhead]

/-- A closing brace does not continue a name. -/
theorem Grammar.Name.before_close {rest rest' : List Char} (h : Name s rest)
    (heq : rest' = rest ++ '}' :: t) : Name s rest' := by
  subst heq
  refine ⟨h.ne_nil, h.chars, ?_⟩
  intro c hc
  cases rest with
  | nil =>
      obtain rfl := Option.some.inj hc
      decide
  | cons d rest => exact h.maximal c hc

/-- A name that ends before a text ends before the start of it. -/
theorem Grammar.Name.of_append {rest : List Char} (h : Name s (rest ++ t)) : Name s rest := by
  refine ⟨h.ne_nil, h.chars, ?_⟩
  intro c hc
  apply h.maximal c
  rw [List.head?_append, Option.mem_def.1 hc]
  rfl

/-- The next character does not change when a text goes on after it. -/
theorem head?_append_cons (w : List Char) (c : Char) (t : List Char) :
    (w ++ c :: t).head? = (w ++ [c]).head? := by
  cases w <;> rfl

/-- Whether a selector ends depends on the next character only. -/
theorem Grammar.Key.congr {selector : Selector} {rest rest' : List Char}
    (h : Key selector s rest) (hhead : rest'.head? = rest.head?) : Key selector s rest' := by
  cases h with
  | name h => exact .name (h.congr hhead)
  | exact h => exact .exact (h.congr hhead)

/-- Selectors are plain. -/
theorem Grammar.Key.plain {selector : Selector} {rest : List Char} (h : Key selector s rest) :
    Plain s := by
  cases h with
  | name h => exact h.plain
  | exact h => exact (plain_singleton (by decide)).append h.plain

/-- Name characters and the equals sign are not blank. -/
theorem isBlank_of_selector_char {c : Char} (hc : isNameChar c = true ∨ c = '=') :
    Text.isBlank c = false := by
  rcases hc with hc | rfl
  · exact isBlank_of_name_char hc
  · decide

/-- A selector starts with a name character or an equals sign. -/
theorem Grammar.Key.head {selector : Selector} {rest : List Char} (h : Key selector s rest) :
    ∃ c s', s = c :: s' ∧ (isNameChar c = true ∨ c = '=') := by
  cases h with
  | name h =>
      obtain ⟨c, s', rfl⟩ := List.exists_cons_of_ne_nil h.ne_nil
      exact ⟨c, s', rfl, .inl (h.chars c (by simp))⟩
  | exact h => exact ⟨_, _, rfl, .inr rfl⟩

/-! ### Selectors -/

/-- A selector of the grammar is read. -/
theorem Selector.read_of_key {selector : Selector} (h : Key selector s t) :
    selector.read (before i (s ++ t)) = .ok (s, before (i + s.length) t) := by
  cases h with
  | name h =>
      have hequals : (before i (s ++ t)).isAt '=' = false := by
        obtain ⟨c, s', rfl⟩ := List.exists_cons_of_ne_nil h.ne_nil
        have hc : c ≠ '=' := by
          rintro rfl
          exact absurd (h.chars '=' (by simp)) (by decide)
        rw [List.cons_append, isAt_before_cons]
        simpa using hc
      rw [Selector.read, if_neg (by simp [hequals]), name_before h.chars h.maximal]
      simp only [h.ne_nil, if_false]
      rw [advance_before h.plain]
  | @exact s _ h =>
      have hequals : (before i ('=' :: s ++ t)).isAt '=' = true := by
        rw [List.cons_append, isAt_before_cons]
        rfl
      have hplain := (Key.exact h).plain
      have hname : ((before i ('=' :: s ++ t)).advance 1).name = s := by
        rw [List.cons_append, advance_before_cons, name_before h.chars h.maximal]
      rw [Selector.read, if_pos ⟨rfl, hequals⟩]
      simp only [hname, h.ne_nil, if_false]
      exact congrArg (fun q => Except.ok ('=' :: s, q)) (advance_before hplain)

/-- A selector that is read is one of the grammar. -/
theorem Selector.key_of_read {selector : Selector} {key : List Char} {q : Place}
    (h : selector.read (before i cs) = .ok (key, q)) :
    ∃ t, cs = key ++ t ∧ Key selector key t ∧ q = before (i + key.length) t := by
  have hkey : ∃ t, cs = key ++ t ∧ Key selector key t := by
    rw [Selector.read] at h
    split at h
    · next hequals =>
      obtain ⟨rfl, hat⟩ := hequals
      obtain ⟨rest, rfl⟩ := eq_cons_of_isAt hat
      obtain ⟨name, t, rfl, hname, ht⟩ := exists_class_run isNameChar rest
      rw [advance_before_cons, name_before hname ht] at h
      dsimp only at h
      split at h
      · cases h
      · next hne =>
        cases h
        exact ⟨t, rfl, .exact ⟨hne, hname, ht⟩⟩
    · obtain ⟨name, t, rfl, hname, ht⟩ := exists_class_run isNameChar cs
      rw [name_before hname ht] at h
      dsimp only at h
      split at h
      · cases h
      · next hne =>
        cases h
        exact ⟨t, rfl, .name ⟨hne, hname, ht⟩⟩
  -- Where the reader stopped follows from the other direction.
  obtain ⟨t, rfl, hkey⟩ := hkey
  rw [Selector.read_of_key hkey] at h
  cases h
  exact ⟨t, rfl, hkey, rfl⟩

/-! ### Branches -/

/-- At its closing brace a construct ends. -/
theorem Branches.read_close {selector : Selector} {p : Place} (h : p.skipBlanks.isAt '}' = true) :
    Branches.read selector p = ⟨[], .ok (p.skipBlanks.advance 1)⟩ := by
  have hne : p.skipBlanks.rest ≠ [] := List.ne_nil_of_length_pos (Place.length_pos_of_isAt h)
  rw [Branches.read]
  simp [hne, h]

/-- A selector and a body make one branch, and reading goes on after the body. -/
theorem Branches.read_cons (selector : Selector) {p afterKey after : Place} {key : List Char}
    {body : Body} (hend : p.skipBlanks.rest ≠ []) (hclose : p.skipBlanks.isAt '}' = false)
    (hread : selector.read p.skipBlanks = .ok (key, afterKey))
    (hopen : afterKey.skipBlanks.isAt '{' = true)
    (hbody : (afterKey.skipBlanks.advance 1).body? = some (body, after)) :
    Branches.read selector p =
      ⟨(key, body) :: (Branches.read selector after).found,
        (Branches.read selector after).finish⟩ := by
  rw [Branches.read]
  simp only [hend, hclose, if_false, Bool.false_eq_true]
  split
  · next fault hfault => rw [hread] at hfault; cases hfault
  · next key' afterKey' hok =>
    rw [hread] at hok
    cases hok
    rw [if_pos hopen]
    split
    · next hnone => rw [hbody] at hnone; cases hnone
    · next hsome =>
      rw [hbody] at hsome
      cases hsome
      rfl

/-- One branch of the grammar is read, and reading goes on after its closing brace. -/
theorem Branches.read_branch {selector : Selector} {w key w' body : List Char} (hw : Blank w)
    (hkey : Key selector key (w' ++ ['{'])) (hw' : Blank w') (hbody : Enclosed 0 body)
    (rest : List Char) :
    Branches.read selector (before i (w ++ key ++ w' ++ '{' :: body ++ '}' :: rest)) =
      let start := i + (w ++ key ++ w' ++ ['{']).length
      let others := Branches.read selector (before (start + body.length + 1) rest)
      ⟨(key, ⟨start, body⟩) :: others.found, others.finish⟩ := by
  -- The five steps of one branch: blanks, selector, blanks, brace, body.
  have htext : w ++ key ++ w' ++ '{' :: body ++ '}' :: rest =
      w ++ (key ++ (w' ++ '{' :: (body ++ '}' :: rest))) := by simp
  have hstart : i + w.length + key.length + w'.length + 1 =
      i + (w ++ key ++ w' ++ ['{']).length := by
    simp only [List.length_append, List.length_cons, List.length_nil]
    omega
  obtain ⟨c, key', rfl, hc⟩ := hkey.head
  have hskip := skipBlanks_before (i := i)
    (t := c :: key' ++ (w' ++ '{' :: (body ++ '}' :: rest))) hw
    (by simpa using isBlank_of_selector_char hc)
  have hread := Selector.read_of_key (i := i + w.length)
    (hkey.congr (head?_append_cons w' '{' (body ++ '}' :: rest)))
  have hskip' := skipBlanks_before (i := i + w.length + (c :: key').length)
    (t := '{' :: (body ++ '}' :: rest)) hw' (forall_head?_cons rfl)
  have hbody' := body?_before (i := i + w.length + (c :: key').length + w'.length + 1)
    (t := rest) hbody
  have hclose : (c == '}') = false := by
    rw [beq_eq_false_iff_ne]
    rintro rfl
    exact absurd hc (by decide)
  rw [hstart] at hbody'
  rw [htext]
  exact Branches.read_cons selector
    (by rw [hskip]; simp)
    (by rw [hskip, List.cons_append, isAt_before_cons, hclose])
    (by rw [hskip, hread])
    (by rw [hskip', isAt_before_cons]; rfl)
    (by rw [hskip', advance_before_cons, hstart, hbody'])

/-- Branches of the grammar are read up to the closing brace of their construct. -/
theorem Branches.read_of_branch_list {selector : Selector} {branches : List Branch}
    (h : BranchList selector s branches) (i : Nat) (t : List Char) :
    (Branches.read selector (before i (s ++ '}' :: t))).toList = branches ∧
      (Branches.read selector (before i (s ++ '}' :: t))).finish =
        .ok (before (i + s.length + 1) t) := by
  induction h generalizing i with
  | nil hblank =>
      have hskip := skipBlanks_before (i := i) (t := '}' :: t) hblank (forall_head?_cons rfl)
      rw [Branches.read_close (by rw [hskip, isAt_before_cons]; rfl), hskip,
        advance_before_cons]
      exact ⟨rfl, rfl⟩
  | @cons w₁ key w₂ body s branches hw₁ hkey hw₂ hbody hrest ih =>
      have htext : w₁ ++ key ++ w₂ ++ '{' :: body ++ '}' :: s ++ '}' :: t =
          w₁ ++ key ++ w₂ ++ '{' :: body ++ '}' :: (s ++ '}' :: t) := by simp
      obtain ⟨hlist, hfinish⟩ := ih (i + (w₁ ++ key ++ w₂ ++ ['{']).length + body.length + 1)
      rw [htext, Branches.read_branch hw₁ hkey hw₂ hbody]
      refine ⟨congrArg (_ :: ·) hlist, hfinish.trans ?_⟩
      refine congrArg Except.ok (before_congr ?_ t)
      simp only [List.length_append, List.length_cons, List.length_nil]
      omega

/-- One branch that is read: the blanks around its selector, the start of its body, and the place
after it. -/
theorem Branches.branch_of_read {selector : Selector} {key : List Char} {afterKey after : Place}
    {body : Body} (hread : selector.read (before i cs).skipBlanks = .ok (key, afterKey))
    (hopen : afterKey.skipBlanks.isAt '{' = true)
    (hbody : (afterKey.skipBlanks.advance 1).body? = some (body, after)) :
    ∃ w w' rest, cs = w ++ key ++ w' ++ '{' :: body.text ++ '}' :: rest ∧ Blank w ∧
      Key selector key (w' ++ ['{']) ∧ Blank w' ∧ Enclosed 0 body.text ∧
      body.start = i + (w ++ key ++ w' ++ ['{']).length ∧
      after = before (i + (w ++ key ++ w' ++ '{' :: body.text).length + 1) rest := by
  obtain ⟨w, rest, rfl, hw, hrest⟩ := exists_blank_run cs
  rw [skipBlanks_before hw hrest] at hread
  obtain ⟨rest, rfl, hkey, rfl⟩ := Selector.key_of_read hread
  obtain ⟨w', rest, rfl, hw', hrest'⟩ := exists_blank_run rest
  rw [skipBlanks_before hw' hrest'] at hopen hbody
  obtain ⟨rest, rfl⟩ := eq_cons_of_isAt hopen
  rw [advance_before_cons] at hbody
  obtain ⟨rest, rfl, henclosed, hstart, rfl⟩ := enclosed_of_body? hbody
  refine ⟨w, w', rest, by simp, hw, hkey.congr (head?_append_cons _ _ _).symm, hw', henclosed, ?_, ?_⟩
  · simp only [hstart, List.length_append, List.length_cons, List.length_nil]
    omega
  · refine before_congr ?_ _
    simp only [List.length_append, List.length_cons]
    omega

/-- Branches that are read to their end are branches of the grammar. -/
theorem Branches.branch_list_of_read {selector : Selector} {p q : Place}
    (h : (Branches.read selector p).finish = .ok q) : ∀ i cs, p = before i cs →
    ∃ s t, cs = s ++ '}' :: t ∧ BranchList selector s (Branches.read selector p).toList ∧
      q = before (i + s.length + 1) t := by
  fun_induction Branches.read selector p with
  | case1 => cases h
  | case2 p here hne hclose =>
      rintro i cs rfl
      obtain ⟨w, rest, rfl, hw, hrest⟩ := exists_blank_run cs
      have hskip : here = _ := skipBlanks_before hw hrest
      rw [hskip] at h hclose
      obtain ⟨t, rfl⟩ := eq_cons_of_isAt hclose
      rw [advance_before_cons] at h
      cases h
      exact ⟨w, t, rfl, .nil hw, rfl⟩
  | case3 => cases h
  | case4 => cases h
  | case5 p here hne hclose key afterKey hread brace hbrace body after hbody hlt others ih =>
      rintro i cs rfl
      obtain ⟨w, w', rest, rfl, hw, hkey, hw', henclosed, -, rfl⟩ :=
        Branches.branch_of_read hread hbrace hbody
      obtain ⟨s, t, rfl, hlist, rfl⟩ := ih h _ _ rfl
      refine ⟨w ++ key ++ w' ++ '{' :: body.text ++ '}' :: s, t, by simp, ?_, ?_⟩
      · exact .cons hw hkey hw' henclosed hlist
      · refine before_congr ?_ _
        simp only [List.length_append, List.length_cons]
        omega
  | case6 => cases h

/-! ### Blanks in front of branches -/

/-- Blanks may stand in front of branches. -/
theorem Grammar.BranchList.blank_append {selector : Selector} {w : List Char}
    {branches : List Branch} (hw : Blank w) (h : BranchList selector s branches) :
    BranchList selector (w ++ s) branches := by
  cases h with
  | nil h => exact .nil (hw.append h)
  | cons hw₁ hkey hw₂ hbody hrest =>
      have h := BranchList.cons (hw.append hw₁) hkey hw₂ hbody hrest
      simpa using h

/-- Branches are blanks, and then branches that do not start with a blank. -/
theorem Grammar.BranchList.exists_blank_append {selector : Selector} {branches : List Branch}
    (h : BranchList selector s branches) :
    ∃ w s', s = w ++ s' ∧ Blank w ∧ BranchList selector s' branches ∧
      ∀ t, ∀ c ∈ (s' ++ '}' :: t).head?, Text.isBlank c = false := by
  cases h with
  | nil hw =>
      refine ⟨_, [], (List.append_nil _).symm, hw, .nil (by simp [Blank]), ?_⟩
      intro t c hc
      obtain rfl := Option.some.inj hc
      decide
  | @cons w₁ key w₂ body s branches hw₁ hkey hw₂ hbody hrest =>
      obtain ⟨c, key', rfl, hc⟩ := hkey.head
      refine ⟨w₁, [] ++ (c :: key') ++ w₂ ++ '{' :: body ++ '}' :: s, by simp, hw₁,
        .cons (by simp [Blank]) hkey hw₂ hbody hrest, ?_⟩
      intro t d hd
      obtain rfl : c = d := by simpa using hd
      exact isBlank_of_selector_char hc

end MessageFormat
