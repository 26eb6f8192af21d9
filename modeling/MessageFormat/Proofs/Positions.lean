import MessageFormat.Proofs.Outlines

/-!
# Positions

Every reader stays inside the text that it reads: the place where it stops belongs to the same text,
and a fault that it reports shows inside the text or at its end. The end of the text does not change
as a place moves on (`Place.stop`), so there is one lemma for each step and one for each reader.
-/

namespace MessageFormat

open Place

variable {p q : Place} {n : Nat}

/-! ### Places -/

namespace Place

/-- The number of characters of the whole text. -/
def stop (p : Place) : Nat :=
  p.pos + p.rest.length

@[simp] theorem stop_before (i : Nat) (s : List Char) : (before i s).stop = i + s.length := by
  simp [stop]

/-- No place is behind the end of the text. -/
theorem pos_le_stop (p : Place) : p.pos ≤ p.stop :=
  Nat.le_add_right _ _

/-- A place of a text is not behind its end. -/
theorem pos_le_of_stop (h : p.stop = n) : p.pos ≤ n :=
  h ▸ pos_le_stop p

/-- Moving on over what there is to read does not leave the text. -/
theorem stop_advance (h : n ≤ p.rest.length) : (p.advance n).stop = p.stop := by
  simp only [stop, advance, List.length_drop]
  omega

/-- Skipping blanks does not leave the text. -/
@[simp] theorem stop_skipBlanks (p : Place) : p.skipBlanks.stop = p.stop :=
  stop_advance (List.takeWhile_prefix _).length_le

/-- A name is part of what remains to be read. -/
theorem length_name_le (p : Place) : p.name.length ≤ p.rest.length := by
  rw [name, Glyph.spell, List.length_map]
  exact (List.takeWhile_prefix _).length_le

/-- Reading a name does not leave the text. -/
@[simp] theorem stop_advance_name (p : Place) : (p.advance p.name.length).stop = p.stop :=
  stop_advance (length_name_le p)

/-- Reading a character that comes next does not leave the text. -/
theorem stop_advance_one {c : Char} (h : p.isAt c = true) : (p.advance 1).stop = p.stop :=
  stop_advance (length_pos_of_isAt h)

/-- A character comes next if its glyph does. -/
theorem isAt_of_head? {c : Char} (h : p.rest.head? = some (.bare c)) : p.isAt c = true := by
  rw [isAt, h]
  exact beq_self_eq_true _

/-- Cutting out a body does not leave the text. -/
theorem stop_of_body? {b : Body} (h : p.body? = some (b, q)) : q.stop = p.stop := by
  obtain ⟨⟨body, after⟩, hclosing, heq⟩ := Option.map_eq_some_iff.1 h
  obtain ⟨rfl, rfl⟩ := Prod.mk.inj heq
  refine stop_advance ?_
  rw [append_of_closing hclosing, List.length_append, List.length_cons]
  omega

end Place

/-! ### Readers -/

/-- What is read ends in a text of `n` characters: there it stops, or there its fault shows. -/
inductive Inside {α : Type} (n : Nat) : Except Fault (α × Place) → Prop where
  | fault {cause position} : position ≤ n → Inside n (.error ⟨cause, position⟩)
  | place {x q} : q.stop = n → Inside n (.ok (x, q))

/-- A fault in a text shows at one of its characters or at its end. -/
theorem Inside.position_le {α : Type} {fault : Fault}
    (h : Inside n (.error fault : Except Fault (α × Place))) : fault.position ≤ n := by
  cases h with
  | fault h => exact h

/-- A place where a reader stops belongs to the text. -/
theorem Inside.stop_eq {α : Type} {x : α} (h : Inside n (.ok (x, q))) : q.stop = n := by
  cases h with
  | place h => exact h

/-- A selector is read inside the text. -/
theorem Selector.inside (selector : Selector) (p : Place) : Inside p.stop (selector.read p) := by
  rw [read]
  split
  · next hequals =>
    have hlength := length_pos_of_isAt hequals.2
    dsimp only
    split
    · refine .fault ?_
      rw [Place.stop]
      omega
    · refine .place (stop_advance ?_)
      have hname := length_name_le (p.advance 1)
      rw [length_advance] at hname
      omega
  · dsimp only
    split
    · exact .fault p.pos_le_stop
    · exact .place (stop_advance_name p)

/-- A selector after blanks is read inside the text. -/
theorem Selector.inside_of_read {selector : Selector} {result : Except Fault (List Char × Place)}
    (h : selector.read p.skipBlanks = result) : Inside p.stop result := by
  rw [← h, ← stop_skipBlanks p]
  exact selector.inside p.skipBlanks

/-- Branches are read inside the text. -/
theorem Branches.inside (selector : Selector) (p : Place) : ∀ make,
    Inside p.stop (Reading.ofBranches (read selector p) make).result := by
  fun_induction read selector p with
  | case1 p here hend => exact fun make => .fault (pos_le_of_stop (stop_skipBlanks p))
  | case2 p here hne hclose =>
      exact fun make => .place ((stop_advance_one hclose).trans (stop_skipBlanks p))
  | case3 p here hne hclose fault hread =>
      exact fun make => .fault (Selector.inside_of_read hread).position_le
  | case4 p here hne hclose key afterKey hread brace hbrace hbody =>
      have hstop : brace.stop = p.stop :=
        (stop_skipBlanks afterKey).trans (Selector.inside_of_read hread).stop_eq
      exact fun make => .fault (Nat.le_of_eq hstop)
  | case5 p here hne hclose key afterKey hread brace hbrace body after hbody hlt others ih =>
      intro make
      have hstop : after.stop = p.stop := by
        rw [stop_of_body? hbody, stop_advance_one hbrace, stop_skipBlanks,
          (Selector.inside_of_read hread).stop_eq]
      rw [← hstop]
      exact ih fun branches => make (⟨String.ofList key, String.ofList body.text⟩ :: branches)
  | case6 p here hne hclose key afterKey hread brace hbrace =>
      have hstop : brace.stop = p.stop :=
        (stop_skipBlanks afterKey).trans (Selector.inside_of_read hread).stop_eq
      exact fun make => .fault (pos_le_of_stop hstop)

/-- An offset is read inside the text. -/
theorem inside_readOffset (p : Place) : Inside p.stop (readOffset p) := by
  rw [readOffset]
  dsimp only
  split
  · next hoffset =>
    have hstop : ((p.advance p.name.length).skipBlanks.advance 1).skipBlanks.stop = p.stop := by
      rw [stop_skipBlanks, stop_advance_one hoffset.2, stop_skipBlanks, stop_advance_name]
    split
    · exact .fault (pos_le_of_stop hstop)
    · exact .place ((stop_advance_name _).trans hstop)
  · exact .place rfl

/-- The variants of a plural are read inside the text. -/
theorem inside_readPlural (make : Option Int → List Branch → Content) (p : Place) :
    Inside p.stop (readPlural make p).result := by
  rw [readPlural]
  split
  · next hcomma =>
    have hoffset := inside_readOffset (p.advance 1).skipBlanks
    rw [stop_skipBlanks, stop_advance_one hcomma] at hoffset
    split
    · next fault hfault =>
      rw [hfault] at hoffset
      exact .fault hoffset.position_le
    · next offset after hafter =>
      rw [hafter] at hoffset
      rw [← hoffset.stop_eq]
      exact Branches.inside .category after (make offset)
  · exact Branches.inside .category p (make none)

/-- The options of a select are read inside the text. -/
theorem inside_readSelect (name : List Char) (p : Place) :
    Inside p.stop (readSelect name p).result := by
  rw [readSelect]
  split
  · next hcomma =>
    rw [← stop_advance_one hcomma]
    exact Branches.inside .key _ _
  · exact Branches.inside .key p _

/-- The rest of an argument is read inside the text. -/
theorem inside_readTyped (name type : List Char) (p : Place) :
    Inside p.stop (readTyped name type p) := by
  rw [readTyped]
  dsimp only
  split
  · next hcomma =>
    have hlength : ∀ gs, (upTo (fun _ => false) 0 gs).length ≤ gs.length := by
      intro gs
      have happend := congrArg List.length (upTo_append (fun _ => false) 0 gs)
      rw [List.length_append] at happend
      omega
    have hstop : ∀ q : Place, q.stop = p.stop →
        (q.advance (upTo (fun _ => false) 0 q.rest).length).stop = p.stop :=
      fun q hq => (stop_advance (hlength q.rest)).trans hq
    have hafter := hstop (p.advance 1).skipBlanks (by rw [stop_skipBlanks, stop_advance_one hcomma])
    split
    · exact .fault (pos_le_of_stop hafter)
    · next hrest =>
      exact .place ((stop_advance (List.length_pos_iff.2 hrest)).trans hafter)
  · split
    · exact .fault p.pos_le_stop
    · split
      · next hclose => exact .place (stop_advance_one hclose)
      · exact .fault p.pos_le_stop

/-- What follows the name of a placeholder is read inside the text. -/
theorem inside_readKind (name : List Char) (p : Place) :
    Inside p.stop (readKind name p).result := by
  rw [readKind]
  have hafter : ((p.skipBlanks.advance p.skipBlanks.name.length).skipBlanks).stop = p.stop := by
    rw [stop_skipBlanks, stop_advance_name, stop_skipBlanks]
  rw [← hafter]
  split
  · exact inside_readPlural _ _
  split
  · exact inside_readPlural _ _
  split
  · exact inside_readSelect _ _
  split
  · exact .fault (pos_le_stop _)
  · exact inside_readTyped _ _ _

/-- A placeholder is read inside the text. -/
theorem inside_readPlaceholder (h : p.isAt '{' = true) :
    Inside p.stop (readPlaceholder p).result := by
  rw [readPlaceholder]
  have hafter : (((p.advance 1).skipBlanks.advance
      (p.advance 1).skipBlanks.name.length).skipBlanks).stop = p.stop := by
    rw [stop_skipBlanks, stop_advance_name, stop_skipBlanks, stop_advance_one h]
  split
  · exact .fault p.pos_le_stop
  split
  · exact .fault (pos_le_of_stop hafter)
  · next g hg =>
    split
    · next hclose =>
      rw [hclose] at hg
      exact .place ((stop_advance_one (isAt_of_head? hg)).trans hafter)
    split
    · next hcomma =>
      rw [hcomma] at hg
      rw [← hafter, ← stop_advance_one (isAt_of_head? hg)]
      exact inside_readKind _ _
    · exact .fault (pos_le_of_stop hafter)

/-- The fault of one level of a text shows inside the text or at its end. -/
theorem Outline.position_le {i : Nat} {s : List Char} {fault : Fault}
    (h : (read (before i s)).fault = some fault) : fault.position ≤ i + s.length := by
  induction i, s using level_induction with
  | nil i =>
      rw [read_nil] at h
      cases h
  | close i t =>
      rw [read_close] at h
      cases h
      exact Nat.le_add_right i _
  | fault i t f hresult =>
      rw [read_fault hresult] at h
      cases h
      have hinside := inside_readPlaceholder (p := before i ('{' :: t)) (by
        rw [isAt_before_cons]
        rfl)
      rw [hresult, stop_before] at hinside
      exact hinside.position_le
  | placeholder i s content t hrule ih =>
      rw [read_placeholder hrule] at h
      rw [List.length_append, ← Nat.add_assoc]
      exact ih h
  | text i s v t hs hrun ht ih =>
      rw [read_text hs hrun ht] at h
      rw [List.length_append, ← Nat.add_assoc]
      exact ih h

end MessageFormat
