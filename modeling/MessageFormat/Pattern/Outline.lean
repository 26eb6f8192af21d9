import MessageFormat.Text.Integer
import MessageFormat.Pattern.Braces
import MessageFormat.Pattern.Cursor
import MessageFormat.Pattern.Element
import MessageFormat.Pattern.Fault

/-!
# Outlines

Reading one level of a message. `Outline.ofChars` splits a text into its elements and cuts out the
branches of its constructs without looking into them. It always answers: the elements up to the
first fault, the branches that were cut out of an unfinished construct, and the fault. Whether the
branches are messages themselves is decided elsewhere, with an outline of each.

Everything moves forward by `Place.advance`. `Outline.length_text_lt` says that a branch is shorter
than the text that it was cut from.
-/

namespace MessageFormat

/-- A place in a text that is being read: the number of characters before it and the glyphs after
it. -/
structure Place where
  /-- The number of characters that have been read. -/
  pos : Nat
  /-- What remains to be read. -/
  rest : List Glyph
  deriving DecidableEq, Repr

namespace Place

/-- The place `n` characters later. -/
def advance (p : Place) (n : Nat) : Place :=
  ⟨p.pos + n, p.rest.drop n⟩

/-- The place after the blanks. -/
def skipBlanks (p : Place) : Place :=
  p.advance (p.rest.takeWhile (·.isBare Text.isBlank)).length

/-- The name that starts here; it is empty if no name character follows. -/
def name (p : Place) : List Char :=
  Glyph.spell (p.rest.takeWhile (·.isBare isNameChar))

/-- The place at the end of the text. -/
def finish (p : Place) : Place :=
  p.advance p.rest.length

/-- The unquoted character `c` comes next. -/
def isAt (p : Place) (c : Char) : Bool :=
  p.rest.head? == some (.bare c)

/-- Moving forward leaves that much less to read. -/
@[simp] theorem length_advance (p : Place) (n : Nat) :
    (p.advance n).rest.length = p.rest.length - n := by
  simp [advance]

/-- Skipping blanks leaves no more to read. -/
theorem length_skipBlanks (p : Place) : p.skipBlanks.rest.length ≤ p.rest.length := by
  simp [skipBlanks]

/-- Where a character comes next, something remains to be read. -/
theorem length_pos_of_isAt {p : Place} {c : Char} (h : p.isAt c = true) : 0 < p.rest.length := by
  unfold isAt at h
  cases hrest : p.rest with
  | nil => simp [hrest] at h
  | cons g rest => simp

end Place

/-- The text of a branch and the number of characters before it. -/
structure Body where
  /-- The number of characters before the body. -/
  start : Nat
  /-- The characters between the braces. -/
  text : List Char
  deriving DecidableEq, Repr

/-- The body whose opening brace has just been read, and the place after its closing brace. -/
def Place.body? (p : Place) : Option (Body × Place) :=
  (closing 0 p.rest).map fun (body, _) =>
    (⟨p.pos, Glyph.spell body⟩, p.advance (body.length + 1))

/-- A body and its closing brace are part of what remained to be read. -/
theorem Place.length_of_body? {p q : Place} {b : Body} (h : p.body? = some (b, q)) :
    b.text.length < p.rest.length ∧ q.rest.length < p.rest.length := by
  obtain ⟨⟨body, after⟩, hclosing, heq⟩ := Option.map_eq_some_iff.1 h
  obtain ⟨rfl, rfl⟩ := Prod.mk.inj heq
  have hlength := congrArg List.length (append_of_closing hclosing)
  simp only [List.length_append, List.length_cons] at hlength
  simp only [Glyph.spell, List.length_map, Place.length_advance]
  omega

/-- Constructs differ in what selects a branch: a number chooses by category, a value by key. -/
inductive Selector where
  /-- Plural categories and exact numbers. -/
  | category
  /-- Option keys. -/
  | key
  deriving DecidableEq, Repr

namespace Selector

/-- What is wrong when the selector of a branch is missing. -/
def missing : Selector → Cause
  | .category => .missingCategory
  | .key => .missingKey

/-- What is wrong when the text of a branch is missing. -/
def missingText : Selector → Cause
  | .category => .missingVariant
  | .key => .missingOption

/-- The selector of a branch: a name or, for a number, also `=` and a name. Its characters are
returned with the place after them. -/
def read (s : Selector) (p : Place) : Except Fault (List Char × Place) :=
  if s = .category ∧ p.isAt '=' then
    let literal := (p.advance 1).name
    if literal = [] then .error ⟨s.missing, p.pos + 1⟩
    else .ok ('=' :: literal, p.advance (literal.length + 1))
  else
    let name := p.name
    if name = [] then .error ⟨s.missing, p.pos⟩
    else .ok (name, p.advance name.length)

/-- A selector that was read leaves no more to read than before. -/
theorem length_of_read {s : Selector} {p q : Place} {key : List Char}
    (h : s.read p = .ok (key, q)) : q.rest.length ≤ p.rest.length := by
  unfold read at h
  split at h
  · dsimp only at h
    split at h
    · cases h
    · cases h
      simp
  · dsimp only at h
    split at h
    · cases h
    · cases h
      simp

end Selector

/-- What was read of the branches of a construct: the finished ones, and the place after the
construct or the fault that ended the reading. -/
structure Branches where
  /-- Selectors and bodies in reading order. -/
  found : List (List Char × Body)
  /-- The place after the construct's closing brace. -/
  finish : Except Fault Place

namespace Branches

/-- The branches up to the closing brace of the construct. -/
def read (s : Selector) (p : Place) : Branches :=
  let here := p.skipBlanks
  if here.rest = [] then ⟨[], .error ⟨.unmatchedBraces, here.pos⟩⟩
  else if here.isAt '\x7d' then ⟨[], .ok (here.advance 1)⟩
  else
    match hread : s.read here with
    | .error fault => ⟨[], .error fault⟩
    | .ok (key, afterKey) =>
      let brace := afterKey.skipBlanks
      if brace.isAt '\x7b' then
        match hbody : (brace.advance 1).body? with
        | none => ⟨[], .error ⟨.unmatchedBraces, brace.finish.pos⟩⟩
        | some (body, after) =>
          have : after.rest.length < p.rest.length := by
            have h₁ : here.rest.length ≤ _ := Place.length_skipBlanks p
            have h₂ := Selector.length_of_read hread
            have h₃ : brace.rest.length ≤ _ := Place.length_skipBlanks afterKey
            have h₄ := (Place.length_of_body? hbody).2
            rw [Place.length_advance] at h₄
            omega
          let others := read s after
          ⟨(key, body) :: others.found, others.finish⟩
      else ⟨[], .error ⟨s.missingText, brace.pos⟩⟩
  termination_by p.rest.length

/-- The branches as an element keeps them. -/
def toList (bs : Branches) : List Branch :=
  bs.found.map fun (key, body) => ⟨String.ofList key, String.ofList body.text⟩

/-- The bodies of the branches. -/
def bodies (bs : Branches) : List Body :=
  bs.found.map (·.2)

end Branches

/-- What was read of a placeholder: the bodies cut out of it, and its content with the place after
it or the fault that ended the reading. -/
structure Reading where
  /-- The bodies of its branches in reading order. -/
  bodies : List Body
  /-- The content and the place after the closing brace. -/
  result : Except Fault (Content × Place)

namespace Reading

/-- A placeholder without branches. -/
def ofExcept (result : Except Fault (Content × Place)) : Reading :=
  ⟨[], result⟩

/-- A construct with its branches, from which `make` makes the content. -/
def ofBranches (bs : Branches) (make : List Branch → Content) : Reading :=
  ⟨bs.bodies, bs.finish.map fun after => (make bs.toList, after)⟩

end Reading

/-- The rest of an argument after its type. -/
def readTyped (name type : List Char) (p : Place) : Except Fault (Content × Place) :=
  let make := fun style => Content.argument (String.ofList name) (some (String.ofList type)) style
  if p.isAt ',' then
    let here := (p.advance 1).skipBlanks
    let raw := upTo (fun _ => false) 0 here.rest
    let after := here.advance raw.length
    let style := Text.strip (Glyph.spell raw)
    if after.rest = [] then .error ⟨.unmatchedBraces, after.pos⟩
    else .ok (make (if style = [] then none else some (String.ofList style)), after.advance 1)
  else if p.rest = [] then .error ⟨.unmatchedBraces, p.pos⟩
  else if p.isAt '\x7d' then .ok (make none, p.advance 1)
  else .error ⟨.missingClose, p.pos⟩

/-- The offset of a plural, if the word `offset` and a colon come next, and the place after it. -/
def readOffset (p : Place) : Except Fault (Option Int × Place) :=
  let word := p.name
  let colon := (p.advance word.length).skipBlanks
  if word = "offset".toList ∧ colon.isAt ':' then
    let here := (colon.advance 1).skipBlanks
    match Text.readInteger here.name with
    | none => .error ⟨.badOffset, here.pos⟩
    | some offset => .ok (some offset, here.advance here.name.length)
  else .ok (none, p)

/-- The rest of a plural after the word `plural` or `selectordinal`. -/
def readPlural (make : Option Int → List Branch → Content) (p : Place) : Reading :=
  if p.isAt ',' then
    match readOffset (p.advance 1).skipBlanks with
    | .error fault => .ofExcept (.error fault)
    | .ok (offset, after) => .ofBranches (.read .category after) (make offset)
  else .ofBranches (.read .category p) (make none)

/-- The rest of a select after the word `select`. -/
def readSelect (name : List Char) (p : Place) : Reading :=
  .ofBranches (.read .key (if p.isAt ',' then p.advance 1 else p)) (.select (String.ofList name))

/-- The rest of a placeholder after its name and a comma. -/
def readKind (name : List Char) (p : Place) : Reading :=
  let here := p.skipBlanks
  let word := here.name
  let after := (here.advance word.length).skipBlanks
  if word = "plural".toList then readPlural (.plural (String.ofList name)) after
  else if word = "selectordinal".toList then
    readPlural (fun _ => .ordinal (String.ofList name)) after
  else if word = "select".toList then readSelect name after
  else if word = [] then .ofExcept (.error ⟨.missingType, after.pos⟩)
  else .ofExcept (readTyped name word after)

/-- The placeholder whose opening brace comes next. -/
def readPlaceholder (p : Place) : Reading :=
  let here := (p.advance 1).skipBlanks
  let name := here.name
  let after := (here.advance name.length).skipBlanks
  if name = [] then .ofExcept (.error ⟨.missingName, p.pos⟩)
  else
    match after.rest.head? with
    | none => .ofExcept (.error ⟨.unmatchedBraces, after.pos⟩)
    | some g =>
      if g = .closeBrace then
        .ofExcept (.ok (.argument (String.ofList name) none none, after.advance 1))
      else if g = .bare ',' then readKind name (after.advance 1)
      else .ofExcept (.error ⟨.unexpected g.char, after.pos⟩)

/-- The glyph belongs to plain text: it is not an unquoted brace. -/
def Glyph.isText (g : Glyph) : Bool :=
  g != .openBrace && g != .closeBrace

/-- An element and the bodies of its branches with their places. -/
structure Piece where
  /-- The element. -/
  element : Element
  /-- The bodies of its branches. -/
  bodies : List Body

/-- One level of a text: its elements, the bodies cut out of a construct that was not finished,
and the fault that ended the reading. -/
structure Outline where
  /-- The elements with their bodies. -/
  pieces : List Piece
  /-- The bodies of an unfinished construct. -/
  pending : List Body
  /-- The fault, unless the whole text was read. -/
  fault : Option Fault

namespace Outline

/-- An outline with one more piece in front. -/
def cons (piece : Piece) (o : Outline) : Outline :=
  { o with pieces := piece :: o.pieces }

/-- All bodies in reading order. -/
def bodies (o : Outline) : List Body :=
  o.pieces.flatMap (·.bodies) ++ o.pending

/-- The bodies of a finished piece are bodies of the outline. -/
theorem mem_bodies_of_piece {o : Outline} {piece : Piece} {b : Body} (hpiece : piece ∈ o.pieces)
    (hb : b ∈ piece.bodies) : b ∈ o.bodies :=
  List.mem_append_left _ (List.mem_flatMap.2 ⟨piece, hpiece, hb⟩)

/-- The bodies of an unfinished construct are bodies of the outline. -/
theorem mem_bodies_of_pending {o : Outline} {b : Body} (hb : b ∈ o.pending) : b ∈ o.bodies :=
  List.mem_append_right _ hb

end Outline

/-! ### Nothing is read twice

A reading moves on, and its bodies are shorter than what there was to read. -/

/-- Bodies of branches are shorter than the text that they were read from. -/
theorem Branches.length_text_lt {s : Selector} {p : Place} {b : Body}
    (hb : b ∈ (Branches.read s p).bodies) : b.text.length < p.rest.length := by
  fun_induction Branches.read s p with
  | case1 => simp [bodies] at hb
  | case2 => simp [bodies] at hb
  | case3 => simp [bodies] at hb
  | case4 => simp [bodies] at hb
  | case5 p here hne hclose key afterKey hread brace hbrace body after hbody hlt others ih =>
    simp only [bodies, List.map_cons, List.mem_cons] at hb
    rcases hb with rfl | hb
    · have h₁ : here.rest.length ≤ _ := Place.length_skipBlanks p
      have h₂ := Selector.length_of_read hread
      have h₃ : brace.rest.length ≤ _ := Place.length_skipBlanks afterKey
      have h₄ := (Place.length_of_body? hbody).1
      rw [Place.length_advance] at h₄
      omega
    · exact Nat.lt_trans (ih hb) hlt
  | case6 => simp [bodies] at hb

/-- After its closing brace less of a construct remains to be read. -/
theorem Branches.length_finish_lt {s : Selector} {p q : Place}
    (hq : (Branches.read s p).finish = .ok q) : q.rest.length < p.rest.length := by
  fun_induction Branches.read s p with
  | case1 => cases hq
  | case2 p here hne hclose =>
    cases hq
    have h₁ : here.rest.length ≤ _ := Place.length_skipBlanks p
    have h₂ := Place.length_pos_of_isAt hclose
    rw [Place.length_advance]
    omega
  | case3 => cases hq
  | case4 => cases hq
  | case5 p here hne hclose key afterKey hread brace hbrace body after hbody hlt others ih =>
    exact Nat.lt_trans (ih hq) hlt
  | case6 => cases hq

/-- An offset that was read leaves no more to read than before. -/
theorem length_of_readOffset {p q : Place} {offset : Option Int}
    (h : readOffset p = .ok (offset, q)) : q.rest.length ≤ p.rest.length := by
  unfold readOffset at h
  dsimp only at h
  split at h
  · split at h
    · cases h
    · cases h
      have h₁ := Place.length_skipBlanks (p.advance p.name.length)
      have h₂ := Place.length_skipBlanks ((p.advance p.name.length).skipBlanks.advance 1)
      simp only [Place.length_advance] at h₁ h₂ ⊢
      omega
  · cases h
    exact Nat.le_refl _

/-- An argument that was read to its end leaves less to read. -/
theorem length_of_readTyped {name type : List Char} {p q : Place} {content : Content}
    (h : readTyped name type p = .ok (content, q)) : q.rest.length < p.rest.length := by
  unfold readTyped at h
  dsimp only at h
  split at h
  · next hcomma =>
    split at h
    · cases h
    · next hrest =>
      cases h
      have h₁ := Place.length_pos_of_isAt hcomma
      have h₂ := Place.length_skipBlanks (p.advance 1)
      have h₃ := List.length_pos_iff.2 hrest
      simp only [Place.length_advance] at h₁ h₂ h₃ ⊢
      omega
  · split at h
    · cases h
    · split at h
      · next hclose =>
        cases h
        have := Place.length_pos_of_isAt hclose
        rw [Place.length_advance]
        omega
      · cases h

/-- A reading stays within the `n` glyphs that there were to read: its bodies are shorter, and
less remains after it. -/
structure Reading.Within (n : Nat) (r : Reading) : Prop where
  /-- The bodies are shorter. -/
  bodies : ∀ b ∈ r.bodies, b.text.length < n
  /-- Less remains. -/
  rest : ∀ content q, r.result = .ok (content, q) → q.rest.length < n

namespace Reading.Within

/-- More to read gives more room. -/
theorem mono {m n : Nat} {r : Reading} (h : r.Within m) (hmn : m ≤ n) : r.Within n :=
  ⟨fun b hb => Nat.lt_of_lt_of_le (h.bodies b hb) hmn,
    fun content q hq => Nat.lt_of_lt_of_le (h.rest content q hq) hmn⟩

/-- A fault leaves nothing to check. -/
theorem error (n : Nat) (fault : Fault) : (Reading.ofExcept (.error fault)).Within n :=
  ⟨fun b hb => by simp [Reading.ofExcept] at hb, fun content q hq => by cases hq⟩

/-- The branches of a construct stay within what there was to read. -/
theorem ofBranches (s : Selector) (p : Place) (make : List Branch → Content) :
    (Reading.ofBranches (.read s p) make).Within p.rest.length := by
  refine ⟨fun b hb => Branches.length_text_lt hb, fun content q hq => ?_⟩
  cases hfinish : (Branches.read s p).finish with
  | error fault => simp [Reading.ofBranches, hfinish, Except.map] at hq
  | ok after =>
    simp only [Reading.ofBranches, hfinish, Except.map, Except.ok.injEq, Prod.mk.injEq] at hq
    exact hq.2 ▸ Branches.length_finish_lt hfinish

/-- A plural stays within what there was to read. -/
theorem readPlural (make : Option Int → List Branch → Content) (p : Place) :
    (readPlural make p).Within p.rest.length := by
  unfold MessageFormat.readPlural
  split
  · split
    · exact error _ _
    · next offset after hoffset =>
      refine (ofBranches _ _ _).mono ?_
      have h₁ := length_of_readOffset hoffset
      have h₂ := Place.length_skipBlanks (p.advance 1)
      simp only [Place.length_advance] at h₁ h₂
      omega
  · exact ofBranches _ _ _

/-- A select stays within what there was to read. -/
theorem readSelect (name : List Char) (p : Place) :
    (readSelect name p).Within p.rest.length := by
  unfold MessageFormat.readSelect
  refine (ofBranches _ _ _).mono ?_
  split
  · simp
  · exact Nat.le_refl _

/-- What follows the name of a placeholder stays within what there was to read. -/
theorem readKind (name : List Char) (p : Place) : (readKind name p).Within p.rest.length := by
  have h₁ := Place.length_skipBlanks p
  have h₂ := Place.length_skipBlanks (p.skipBlanks.advance p.skipBlanks.name.length)
  rw [Place.length_advance] at h₂
  unfold MessageFormat.readKind
  dsimp only
  split
  · exact (readPlural _ _).mono (by omega)
  · split
    · exact (readPlural _ _).mono (by omega)
    · split
      · exact (readSelect _ _).mono (by omega)
      · split
        · exact error _ _
        · refine ⟨fun b hb => by simp [Reading.ofExcept] at hb, fun content q hq => ?_⟩
          have := length_of_readTyped hq
          omega

/-- A placeholder stays within what there was to read. -/
theorem readPlaceholder (p : Place) : (readPlaceholder p).Within p.rest.length := by
  have h₁ := Place.length_skipBlanks (p.advance 1)
  have h₂ := Place.length_skipBlanks
    ((p.advance 1).skipBlanks.advance (p.advance 1).skipBlanks.name.length)
  simp only [Place.length_advance] at h₁ h₂
  unfold MessageFormat.readPlaceholder
  dsimp only
  split
  · exact error _ _
  · split
    · exact error _ _
    · next g hg =>
      split
      · refine ⟨fun b hb => by simp [Reading.ofExcept] at hb, fun content q hq => ?_⟩
        cases hq
        have h₃ := List.length_pos_iff.2 (List.ne_nil_of_mem (List.mem_of_mem_head? hg))
        simp only [Place.length_advance]
        omega
      · split
        · refine (readKind _ _).mono ?_
          simp only [Place.length_advance]
          omega
        · exact error _ _

end Reading.Within

namespace Outline

/-- The outline of what remains to be read. -/
def read (p : Place) : Outline :=
  match hrest : p.rest with
  | [] => ⟨[], [], none⟩
  | g :: rest =>
    if g = .closeBrace then ⟨[], [], some ⟨.unmatchedBraces, p.pos⟩⟩
    else if g = .openBrace then
      match hreading : (readPlaceholder p).result with
      | .error fault => ⟨[], (readPlaceholder p).bodies, some fault⟩
      | .ok (content, after) =>
        have := (Reading.Within.readPlaceholder p).rest content after hreading
        (read after).cons ⟨⟨content, p.pos, after.pos⟩, (readPlaceholder p).bodies⟩
    else
      let run := g :: rest.takeWhile Glyph.isText
      let after := p.advance run.length
      have : after.rest.length < p.rest.length := by
        rw [Place.length_advance, hrest]
        simp only [List.length_cons, run]
        omega
      (read after).cons
        ⟨⟨.text (String.ofList (Glyph.decode run)), p.pos, after.pos⟩, []⟩
  termination_by p.rest.length

/-- Every body is shorter than what there was to read. -/
theorem length_text_lt_of_read {p : Place} {b : Body} (hb : b ∈ (read p).bodies) :
    b.text.length < p.rest.length := by
  fun_induction read p with
  | case1 => simp [bodies] at hb
  | case2 => simp [bodies] at hb
  | case3 p rest fault hreading hrest hclose =>
    simp only [bodies, List.flatMap_nil, List.nil_append] at hb
    exact (Reading.Within.readPlaceholder p).bodies b hb
  | case4 p rest content after hreading hlt hrest hclose ih =>
    simp only [bodies, cons, List.flatMap_cons, List.append_assoc, List.mem_append] at hb ih
    rcases hb with hb | hb
    · exact (Reading.Within.readPlaceholder p).bodies b hb
    · exact Nat.lt_trans (ih hb) hlt
  | case5 p g rest hrest hclose hopen run after hlt ih =>
    simp only [bodies, cons, List.flatMap_cons, List.nil_append, List.mem_append] at hb ih
    exact Nat.lt_trans (ih hb) hlt

/-- The outline of a text. -/
def ofChars (text : List Char) : Outline :=
  read ⟨0, glyphs .outside text⟩

/-- The body of a branch is shorter than the text that it was cut from. -/
theorem length_text_lt {text : List Char} {b : Body} (hb : b ∈ (ofChars text).bodies) :
    b.text.length < text.length := by
  have h := length_text_lt_of_read hb
  rwa [length_glyphs] at h

end Outline

end MessageFormat
