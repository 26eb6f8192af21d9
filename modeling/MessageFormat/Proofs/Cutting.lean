import MessageFormat.Proofs.Outlines

/-!
# Where bodies are cut out

A body of a branch stands in the text directly before a closing brace, and only what comes before it
decides that it is cut out. `CutAfter` says so of one body: any other enclosed text in its place would
have been cut out as well, with any text after its closing brace. There is one lemma for each reader,
up to `Outline.steady` for one level of a message.
-/

namespace MessageFormat

open Grammar Place

variable {i : Nat} {p s t cs : List Char} {f g : Place → List Body} {earlier : List Body} {b : Body}

/-- The reader `f` has cut the body `b` out of the text, after the bodies `earlier`, because of the
text `s` in front of it. -/
structure CutAfter (f : Place → List Body) (i : Nat) (cs s : List Char) (earlier : List Body)
    (b : Body) : Prop where
  /-- Something comes before the body. -/
  ne_nil : s ≠ []
  /-- The body stands between the text `s` and a closing brace. -/
  text : ∃ rest, cs = s ++ b.text ++ '}' :: rest
  /-- The body starts where that text ends. -/
  start : b.start = i + s.length
  /-- The body is enclosed. -/
  enclosed : Enclosed 0 b.text
  /-- After the text `s` every enclosed text is cut out, whatever follows it, and the bodies before
  it have the same texts. -/
  leads : ∀ body rest, Enclosed 0 body → ∃ found later,
    f (before i (s ++ body ++ '}' :: rest)) = found ++ ⟨i + s.length, body⟩ :: later ∧
      found.map (·.text) = earlier.map (·.text)

/-- All bodies that the reader finds in the text have been cut out in this way. -/
def Steady (f : Place → List Body) (i : Nat) (cs : List Char) : Prop :=
  ∀ earlier b later, f (before i cs) = earlier ++ b :: later → ∃ s, CutAfter f i cs s earlier b

/-- An element that comes after a list in two lists is in the first one or in the second one. -/
theorem split_append {l l' later : List Body} (h : l ++ l' = earlier ++ b :: later) :
    (∃ later', l = earlier ++ b :: later') ∨
      ∃ earlier', earlier = l ++ earlier' ∧ l' = earlier' ++ b :: later := by
  rcases List.append_eq_append_iff.1 h with ⟨between, rfl, hl'⟩ | ⟨between, rfl, hl'⟩
  · exact .inr ⟨between, rfl, hl'⟩
  · cases between with
    | nil => exact .inr ⟨[], by simp, hl'.symm⟩
    | cons b' between =>
        obtain ⟨rfl, -⟩ := List.cons.inj hl'
        exact .inl ⟨between, rfl⟩

/-! ### Readers that call other readers -/

/-- What follows a text that is not empty does not change its first character. -/
theorem head?_append_of_ne_nil (hs : s ≠ []) (t t' : List Char) :
    (s ++ t).head? = (s ++ t').head? := by
  cases s with
  | nil => exact absurd rfl hs
  | cons c s => rfl

/-- A reader that finds some bodies in the text `p` and leaves what follows to another reader cuts
out what the other one does. -/
theorem CutAfter.after (h : CutAfter g (i + p.length) t s earlier b) (found : List Body)
    (hfg : ∀ t', t'.head? = t.head? → g (before (i + p.length) t') ≠ [] →
      ∃ found', found'.map (·.text) = found.map (·.text) ∧
        f (before i (p ++ t')) = found' ++ g (before (i + p.length) t')) :
    CutAfter f i (p ++ t) (p ++ s) (found ++ earlier) b := by
  have hlength : i + (p ++ s).length = i + p.length + s.length := by
    rw [List.length_append, Nat.add_assoc]
  obtain ⟨rest, htext⟩ := h.text
  refine ⟨by simp [h.ne_nil], ⟨rest, by simp [htext]⟩, h.start.trans hlength.symm, h.enclosed, ?_⟩
  intro body rest' hbody
  obtain ⟨between, later, hbodies, htexts⟩ := h.leads body rest' hbody
  have hhead : (s ++ body ++ '}' :: rest').head? = t.head? := by
    rw [htext, List.append_assoc, List.append_assoc]
    exact head?_append_of_ne_nil h.ne_nil _ _
  obtain ⟨found', hfound', hf⟩ := hfg _ hhead (by rw [hbodies]; simp)
  refine ⟨found' ++ between, later, ?_, by rw [List.map_append, List.map_append, hfound', htexts]⟩
  rw [hlength, List.append_assoc, List.append_assoc, ← List.append_assoc s, hf, hbodies,
    List.append_assoc]

/-- A reader that goes on after another one still cuts out what the other one does. -/
theorem CutAfter.extend (h : CutAfter g i cs s earlier b)
    (hfg : ∀ t, t.head? = cs.head? → ∃ more, f (before i t) = g (before i t) ++ more) :
    CutAfter f i cs s earlier b := by
  refine ⟨h.ne_nil, h.text, h.start, h.enclosed, ?_⟩
  intro body rest hbody
  obtain ⟨found, later, hbodies, htexts⟩ := h.leads body rest hbody
  obtain ⟨rest', htext⟩ := h.text
  obtain ⟨more, hmore⟩ := hfg (s ++ body ++ '}' :: rest) (by
    rw [htext, List.append_assoc, List.append_assoc]
    exact head?_append_of_ne_nil h.ne_nil _ _)
  refine ⟨found, later ++ more, ?_, htexts⟩
  rw [hmore, hbodies, List.append_assoc, List.cons_append]

namespace Steady

/-- Where no bodies are found there is nothing to check. -/
theorem of_no_bodies (h : f (before i cs) = []) : Steady f i cs := by
  intro earlier b later heq
  rw [h] at heq
  cases earlier <;> cases heq

/-- A reader that passes over a text and leaves what follows to another reader is as steady as that
one. -/
theorem after (h : Steady g (i + p.length) t)
    (hfg : ∀ t', t'.head? = t.head? →
      f (before i (p ++ t')) = g (before (i + p.length) t')) : Steady f i (p ++ t) := by
  intro earlier b later heq
  rw [hfg t rfl] at heq
  obtain ⟨s, hcut⟩ := h earlier b later heq
  exact ⟨p ++ s, hcut.after [] fun t' ht' _ => ⟨[], rfl, hfg t' ht'⟩⟩

/-- A reader that leaves everything to another one is as steady as that one. -/
theorem of_eq (h : Steady g i cs)
    (hfg : ∀ t, t.head? = cs.head? → f (before i t) = g (before i t)) : Steady f i cs :=
  after (p := []) h hfg

end Steady

/-! ### Branches -/

/-- The body of a branch comes first, and those of the other branches follow. -/
theorem Branches.bodies_read_branch {selector : Selector} {w key w' body : List Char} (hw : Blank w)
    (hkey : Key selector key (w' ++ ['{'])) (hw' : Blank w') (hbody : Enclosed 0 body)
    (t : List Char) :
    (Branches.read selector (before i (w ++ key ++ w' ++ '{' :: body ++ '}' :: t))).bodies =
      ⟨i + (w ++ key ++ w' ++ ['{']).length, body⟩ ::
        (Branches.read selector
          (before (i + (w ++ key ++ w' ++ '{' :: body ++ ['}']).length) t)).bodies := by
  have hafter : i + (w ++ key ++ w' ++ '{' :: body ++ ['}']).length =
      i + (w ++ key ++ w' ++ ['{']).length + body.length + 1 := by
    simp only [List.length_append, List.length_cons, List.length_nil]
    omega
  rw [Branches.read_branch hw hkey hw' hbody, hafter]
  rfl

/-- The bodies of branches are cut out one after the other. -/
theorem Branches.exists_cut_after (selector : Selector) (q : Place) :
    ∀ i cs, q = before i cs → ∀ earlier b later,
      (Branches.read selector q).bodies = earlier ++ b :: later →
        ∃ s, CutAfter (fun q => (Branches.read selector q).bodies) i cs s earlier b := by
  fun_induction Branches.read selector q with
  | case1 => rintro i cs rfl (_ | _) b later ⟨⟩
  | case2 => rintro i cs rfl (_ | _) b later ⟨⟩
  | case3 => rintro i cs rfl (_ | _) b later ⟨⟩
  | case4 => rintro i cs rfl (_ | _) b later ⟨⟩
  | case5 q here hne hclose key afterKey hread brace hbrace body after hbody hlt others ih =>
      rintro i cs rfl earlier b later h
      obtain ⟨w, w', rest, rfl, hw, hkey, hw', henclosed, hstart, rfl⟩ :=
        Branches.branch_of_read hread hbrace hbody
      rcases List.cons_eq_append_iff.1 h with ⟨rfl, hhead⟩ | ⟨earlier, rfl, hrest⟩
      · obtain ⟨rfl, -⟩ := List.cons.inj hhead
        refine ⟨w ++ key ++ w' ++ ['{'], by simp, ⟨rest, by simp⟩, hstart, henclosed, ?_⟩
        intro body rest' hbody'
        have htext : w ++ key ++ w' ++ ['{'] ++ body ++ '}' :: rest' =
            w ++ key ++ w' ++ '{' :: body ++ '}' :: rest' := by simp
        rw [htext]
        exact ⟨[], _, Branches.bodies_read_branch hw hkey hw' hbody' rest', rfl⟩
      · have htext : ∀ t, w ++ key ++ w' ++ '{' :: body.text ++ '}' :: t =
            w ++ key ++ w' ++ '{' :: body.text ++ ['}'] ++ t := by simp
        have hafter : i + (w ++ key ++ w' ++ '{' :: body.text).length + 1 =
            i + (w ++ key ++ w' ++ '{' :: body.text ++ ['}']).length := by
          simp only [List.length_append, List.length_cons, List.length_nil]
          omega
        obtain ⟨s, hcut⟩ := ih _ _ (before_congr hafter rest) _ _ _ hrest
        rw [htext]
        refine ⟨_, hcut.after [body] fun t _ _ => ⟨[body], rfl, ?_⟩⟩
        rw [← htext, Branches.bodies_read_branch hw hkey hw' henclosed, ← hstart]
        rfl
  | case6 => rintro i cs rfl (_ | _) b later ⟨⟩

/-- Branches are cut out steadily. -/
theorem Branches.steady (selector : Selector) (i : Nat) (cs : List Char) :
    Steady (fun q => (Branches.read selector q).bodies) i cs :=
  Branches.exists_cut_after selector _ i cs rfl

/-! ### Placeholders -/

/-- Where branches have bodies, a selector and an opening brace come first. -/
theorem Branches.exists_key_of_bodies (selector : Selector) (q : Place) :
    (Branches.read selector q).bodies ≠ [] → ∀ i cs, q = before i cs →
      ∃ w key w' rest, cs = w ++ (key ++ (w' ++ '{' :: rest)) ∧ Blank w ∧
        Key selector key (w' ++ ['{']) ∧ Blank w' := by
  fun_cases Branches.read selector q with
  | case1 => exact fun h => absurd rfl h
  | case2 => exact fun h => absurd rfl h
  | case3 => exact fun h => absurd rfl h
  | case4 => exact fun h => absurd rfl h
  | case5 here hne hclose key afterKey hread brace hbrace body after hbody =>
      rintro - i cs rfl
      obtain ⟨w, w', rest, rfl, hw, hkey, hw', -⟩ := Branches.branch_of_read hread hbrace hbody
      exact ⟨w, key, w', body.text ++ '}' :: rest, by simp, hw, hkey, hw'⟩
  | case6 => exact fun h => absurd rfl h

/-- Where branches have bodies, no offset comes before them. -/
theorem readOffset_of_bodies (hs : ∀ c ∈ s.head?, Text.isBlank c = false)
    (h : (Branches.read .category (before i s)).bodies ≠ []) :
    readOffset (before i s) = .ok (none, before i s) := by
  obtain ⟨w, key, w', rest, rfl, hw, hkey, hw'⟩ := Branches.exists_key_of_bodies _ _ h i s rfl
  cases w with
  | nil => exact readOffset_of_key hkey hw'
  | cons c w =>
      have hblank := hs c rfl
      rw [hw c List.mem_cons_self] at hblank
      cases hblank

/-- The variants after the comma of a plural are cut out steadily. -/
theorem steady_readPlural_comma (make : Option Int → List Branch → Content) {w : List Char}
    (hw : Blank w) (ht : ∀ c ∈ t.head?, Text.isBlank c = false) :
    Steady (fun q => (readPlural make q).bodies) i (',' :: w ++ t) := by
  cases hoffset : readOffset (before (i + (',' :: w).length) t) with
  | error fault =>
      refine .of_no_bodies ?_
      rw [readPlural_comma make hw ht, hoffset]
      rfl
  | ok found =>
      obtain ⟨offset, after⟩ := found
      rcases offset_of_readOffset hoffset with ⟨rfl, rfl⟩ |
        ⟨w₁, w₂, number, rest, n, rfl, hw₁, hw₂, hname, hnumber, rfl, rfl⟩
      · intro earlier b later h
        have hbodies : (readPlural make (before i (',' :: w ++ t))).bodies = _ := h
        rw [readPlural_comma make hw ht, hoffset] at hbodies
        obtain ⟨s, hcut⟩ := Branches.steady .category _ _ _ _ _ hbodies
        -- With another text after the blanks there is a variant as well, and so no offset.
        refine ⟨',' :: w ++ s, hcut.after [] fun t' ht' hne => ⟨[], rfl, ?_⟩⟩
        have hblank : ∀ c ∈ t'.head?, Text.isBlank c = false := by rwa [ht']
        rw [readPlural_comma make hw hblank, readOffset_of_bodies hblank hne]
        rfl
      · have htext : ∀ t', ',' :: w ++ ("offset".toList ++ w₁ ++ ':' :: (w₂ ++ number ++ t')) =
            ',' :: w ++ ("offset".toList ++ w₁ ++ ':' :: (w₂ ++ number)) ++ t' := by simp
        have hplace : i + (',' :: w).length +
            ("offset".toList ++ w₁ ++ ':' :: (w₂ ++ number)).length =
              i + (',' :: w ++ ("offset".toList ++ w₁ ++ ':' :: (w₂ ++ number))).length := by
          simp only [List.length_append, List.length_cons]
          omega
        rw [htext]
        refine (Branches.steady .category _ rest).after fun t' ht' => ?_
        rw [← htext, readPlural_comma make hw (offset_word_head w₁ _),
          readOffset_of_integer hw₁ hw₂ (hname.congr ht') hnumber, hplace]
        rfl

/-- The variants of a plural are cut out steadily. -/
theorem steady_readPlural (make : Option Int → List Branch → Content) (i : Nat) (cs : List Char) :
    Steady (fun q => (readPlural make q).bodies) i cs := by
  cases hcomma : (before i cs).isAt ',' with
  | false =>
      refine (Branches.steady .category i cs).of_eq fun t ht => ?_
      rw [readPlural, isAt_before_congr ht, hcomma]
      rfl
  | true =>
      obtain ⟨rest, rfl⟩ := eq_cons_of_isAt hcomma
      obtain ⟨w, rest, rfl, hw, hrest⟩ := exists_blank_run rest
      exact steady_readPlural_comma make hw hrest

/-- The options of a select are cut out steadily. -/
theorem steady_readSelect (name : List Char) (i : Nat) (cs : List Char) :
    Steady (fun q => (readSelect name q).bodies) i cs := by
  cases hcomma : (before i cs).isAt ',' with
  | false =>
      refine (Branches.steady .key i cs).of_eq fun t ht => ?_
      rw [readSelect, isAt_before_congr ht, hcomma]
      rfl
  | true =>
      obtain ⟨rest, rfl⟩ := eq_cons_of_isAt hcomma
      refine (Branches.steady .key (i + 1) rest).after (p := [',']) fun t _ => ?_
      rw [readSelect, List.cons_append, isAt_before_cons, if_pos (by decide), advance_before_cons]
      rfl

/-- What follows the name of a placeholder is cut out steadily. -/
theorem steady_readKind (name : List Char) (i : Nat) (cs : List Char) :
    Steady (fun q => (readKind name q).bodies) i cs := by
  rcases readKind_cases name i cs with ⟨position, hfault⟩ |
    ⟨w₁, word, w₂, rest, rfl, hw₁, hname, hw₂, hrest⟩
  · refine .of_no_bodies ?_
    rw [hfault]
    rfl
  have hread : ∀ t, t.head? = rest.head? → readKind name (before i (w₁ ++ word ++ w₂ ++ t)) =
      let after := before (i + (w₁ ++ word ++ w₂).length) t
      if word = "plural".toList then readPlural (.plural (String.ofList name)) after
      else if word = "selectordinal".toList then
        readPlural (fun _ => .ordinal (String.ofList name)) after
      else if word = "select".toList then readSelect name after
      else .ofExcept (readTyped name word after) := by
    intro t ht
    have hplace : i + w₁.length + word.length + w₂.length = i + (w₁ ++ word ++ w₂).length := by
      simp only [List.length_append]
      omega
    rw [← hplace, List.append_assoc, List.append_assoc]
    exact readKind_before name hw₁ (hname.congr_append ht) hw₂ (by rwa [ht])
  have htext : w₁ ++ (word ++ (w₂ ++ rest)) = w₁ ++ word ++ w₂ ++ rest := by simp
  rw [htext]
  by_cases hplural : word = "plural".toList
  · refine (steady_readPlural (.plural (String.ofList name)) _ rest).after fun t ht => ?_
    rw [hread t ht, if_pos hplural]
  by_cases hordinal : word = "selectordinal".toList
  · refine (steady_readPlural (fun _ => .ordinal (String.ofList name)) _ rest).after fun t ht => ?_
    rw [hread t ht, if_neg hplural, if_pos hordinal]
  by_cases hselect : word = "select".toList
  · refine (steady_readSelect name _ rest).after fun t ht => ?_
    rw [hread t ht, if_neg hplural, if_neg hordinal, if_pos hselect]
  · refine .of_no_bodies ?_
    rw [hread rest rfl, if_neg hplural, if_neg hordinal, if_neg hselect]
    rfl

/-- A placeholder is cut into steadily. -/
theorem steady_readPlaceholder (i : Nat) (cs : List Char) :
    Steady (fun q => (readPlaceholder q).bodies) i ('{' :: cs) := by
  rcases readPlaceholder_cases i cs with hfault | ⟨-, position, hfault⟩ |
    ⟨w₁, name, w₂, c, rest, rfl, hw₁, hname, hw₂, hc⟩
  · refine .of_no_bodies ?_
    rw [hfault]
    rfl
  · refine .of_no_bodies ?_
    rw [hfault]
    rfl
  have hread : ∀ t, readPlaceholder (before i ('{' :: (w₁ ++ (name ++ (w₂ ++ c :: t))))) = _ :=
    fun t => readPlaceholder_before hw₁ (hname.congr_append rfl) hw₂ hc
  by_cases hcomma : c = ','
  · subst hcomma
    have htext : ∀ t, '{' :: (w₁ ++ (name ++ (w₂ ++ ',' :: t))) =
        '{' :: (w₁ ++ name ++ w₂ ++ [',']) ++ t := by simp
    have hplace : i + 1 + w₁.length + name.length + w₂.length + 1 =
        i + ('{' :: (w₁ ++ name ++ w₂ ++ [','])).length := by
      simp only [List.length_append, List.length_cons, List.length_nil]
      omega
    rw [htext]
    refine (steady_readKind name _ rest).after fun t _ => ?_
    rw [← htext, hread]
    dsimp only
    rw [if_neg (by decide), if_pos rfl, advance_before_cons, hplace]
  · refine .of_no_bodies ?_
    rw [hread]
    dsimp only
    split
    · rfl
    · rfl

/-! ### One level -/

namespace Outline

/-- One more piece in front has its bodies in front. -/
theorem bodies_cons (piece : Piece) (o : Outline) :
    (o.cons piece).bodies = piece.bodies ++ o.bodies := by
  rw [bodies, cons, List.flatMap_cons, List.append_assoc]
  rfl

/-- The bodies of the placeholder that a text starts with come first. -/
theorem bodies_read_open (i : Nat) (t : List Char) :
    ∃ more, (read (before i ('{' :: t))).bodies =
      (readPlaceholder (before i ('{' :: t))).bodies ++ more := by
  cases hresult : (readPlaceholder (before i ('{' :: t))).result with
  | error fault => exact ⟨[], by rw [read_fault hresult, List.append_nil]; rfl⟩
  | ok found =>
      obtain ⟨content, after⟩ := found
      obtain ⟨s, t', heq, hrule, -⟩ := rule_of_readPlaceholder hresult
      rw [heq, read_placeholder hrule, bodies_cons]
      exact ⟨_, rfl⟩

/-- The bodies of the placeholder that a text starts with are cut out of the text. -/
theorem cut_after_of_open {later : List Body}
    (h : (readPlaceholder (before i ('{' :: t))).bodies = earlier ++ b :: later) :
    ∃ s, CutAfter (fun q => (read q).bodies) i ('{' :: t) s earlier b := by
  obtain ⟨s, hcut⟩ := steady_readPlaceholder i t _ _ _ h
  refine ⟨s, hcut.extend fun t' ht' => ?_⟩
  obtain ⟨t', rfl⟩ := List.head?_eq_some_iff.1 ht'
  exact bodies_read_open i t'

/-- The texts of the bodies of a placeholder do not depend on what follows it. -/
theorem texts_readPlaceholder {content : Content} (h : Placeholder s content) (t t' : List Char) :
    (readPlaceholder (before i (s ++ t))).bodies.map (·.text) =
      (readPlaceholder (before i (s ++ t'))).bodies.map (·.text) := by
  have htexts : ∀ t, (readPlaceholder (before i (s ++ t))).bodies.map (·.text) =
      content.branches.map (·.text.toList) :=
    fun t => has_bodies_readPlaceholder _ _ _ (readPlaceholder_of_rule h)
  rw [htexts, htexts]

/-- The bodies of one level of a message are cut out steadily. -/
theorem steady (i : Nat) (cs : List Char) : Steady (fun q => (read q).bodies) i cs := by
  induction i, cs using level_induction with
  | nil i => exact .of_no_bodies (by rw [read_nil]; rfl)
  | close i t => exact .of_no_bodies (by rw [read_close]; rfl)
  | fault i t fault hresult =>
      intro earlier b later h
      have hbodies : (read (before i ('{' :: t))).bodies = _ := h
      rw [read_fault hresult] at hbodies
      exact cut_after_of_open hbodies
  | placeholder i s content t hrule ih =>
      have hread : ∀ t', (read (before i (s ++ t'))).bodies =
          (readPlaceholder (before i (s ++ t'))).bodies ++
            (read (before (i + s.length) t')).bodies := by
        intro t'
        rw [read_placeholder hrule, bodies_cons]
      intro earlier b later h
      have hbodies : (read (before i (s ++ t))).bodies = _ := h
      rw [hread] at hbodies
      rcases split_append hbodies with ⟨later, hinside⟩ | ⟨between, rfl, hafter⟩
      · obtain ⟨inner, rfl⟩ : ∃ inner, s = '{' :: inner := by
          cases hrule <;> exact ⟨_, rfl⟩
        exact cut_after_of_open hinside
      · obtain ⟨s', hcut⟩ := ih _ _ _ hafter
        exact ⟨s ++ s', hcut.after _ fun t' _ _ => ⟨_, texts_readPlaceholder hrule t' t, hread t'⟩⟩
  | text i s v t hs hrun ht ih =>
      refine ih.after fun t' ht' => ?_
      rw [read_text hs (by rwa [ht']) (by rwa [ht']), bodies_cons]
      rfl

end Outline

end MessageFormat
