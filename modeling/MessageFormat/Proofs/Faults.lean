import MessageFormat.Proofs.Balance
import MessageFormat.Proofs.Positions

/-!
# Where faults are reported

A fault is reported in the text that was passed, at one of its characters or at its end. When the
text of a branch fails by itself, the surrounding text fails with the same fault, moved by what comes
before the branch (`parse_located`). It does so before anything after the branch is looked at, at
every depth: `Reaches` says which branches a reading of the text gets to.
-/

namespace MessageFormat

open Grammar Place

/-- The body is cut out of the text when the bodies before it have turned out to be messages. -/
def Cuts (text : List Char) (body : Body) : Prop :=
  ∃ earlier later, (Outline.ofChars text).bodies = earlier ++ body :: later ∧
    ∀ b ∈ earlier, isMessage (String.ofList b.text) = true

/-- Parsing the text gets to the body, which stands in a construct of the text or, deeper, in one of
a body that parsing gets to. -/
inductive Reaches : List Char → Body → Prop where
  | here {text : List Char} {body : Body} : Cuts text body → Reaches text body
  | inside {text : List Char} {outer body : Body} :
      Cuts text outer → Reaches outer.text body →
      Reaches text ⟨outer.start + body.start, body.text⟩

variable {text : List Char} {body : Body} {fault : Fault}

/-! ### Bodies in their texts -/

/-- A body that is cut out stands before a closing brace. -/
theorem Cuts.exists_append (h : Cuts text body) :
    ∃ s t, text = s ++ body.text ++ '}' :: t ∧ body.start = s.length ∧ Enclosed 0 body.text := by
  obtain ⟨earlier, later, hbodies, -⟩ := h
  have hmem : body ∈ (Outline.ofChars text).bodies := by
    rw [hbodies]
    exact List.mem_append_right _ List.mem_cons_self
  obtain ⟨s, t, htext, hstart, henclosed⟩ := Outline.exists_of_mem_bodies hmem
  exact ⟨s, t, htext, by omega, henclosed⟩

/-- A body that parsing gets to stands before a closing brace, at every depth. -/
theorem Reaches.exists_append (h : Reaches text body) :
    ∃ s t, text = s ++ body.text ++ '}' :: t ∧ body.start = s.length ∧ Enclosed 0 body.text := by
  induction h with
  | here hcuts => exact hcuts.exists_append
  | @inside text outer body hcuts _ ih =>
      obtain ⟨s₁, t₁, rfl, hstart₁, -⟩ := hcuts.exists_append
      obtain ⟨s₂, t₂, htext, hstart₂, henclosed⟩ := ih
      refine ⟨s₁ ++ s₂, t₂ ++ '}' :: t₁, ?_, ?_, henclosed⟩
      · rw [htext]
        simp only [List.append_assoc, List.cons_append]
      · rw [List.length_append, ← hstart₁, ← hstart₂]

/-- A cursor before an enclosed text and a closing brace reads that text. -/
theorem Cursor.readBalanced_of_enclosed {s b t : List Char} (h : Enclosed 0 b) :
    (⟨String.ofList (s ++ b ++ '}' :: t), s.length⟩ : Cursor).readBalanced =
      (some (String.ofList b), ⟨String.ofList (s ++ b ++ '}' :: t), s.length + b.length + 1⟩) := by
  obtain ⟨gs, hspell, hclosing⟩ := closing_of_enclosed h t
  have hlength : gs.length = b.length := by
    rw [← hspell, Glyph.spell, List.length_map]
  have hrest : (⟨String.ofList (s ++ b ++ '}' :: t), s.length⟩ : Cursor).rest = b ++ '}' :: t := by
    rw [rest, String.toList_ofList, List.append_assoc, List.drop_left]
  rw [← hrest] at hclosing
  rw [readBalanced_of_closing hclosing]
  simp only [hspell, advance, hlength, Nat.add_assoc]

/-- After a body is cut out, any enclosed text in its place is cut out as well, whatever follows
its closing brace. -/
theorem Cuts.replace (h : Cuts text body) {other : List Char} (hother : Enclosed 0 other)
    (rest : List Char) :
    Cuts (text.take body.start ++ other ++ '}' :: rest) ⟨body.start, other⟩ := by
  obtain ⟨earlier, later, hbodies, hmessages⟩ := h
  obtain ⟨s, hcut⟩ := Outline.steady 0 text earlier body later hbodies
  obtain ⟨t, rfl⟩ := hcut.text
  obtain ⟨found, later', hfound, htexts⟩ := hcut.leads other rest hother
  have hstart : body.start = s.length := by
    have := hcut.start
    omega
  rw [hstart, List.append_assoc s, List.take_left]
  refine ⟨found, later', ?_, ?_⟩
  · rw [Nat.zero_add] at hfound
    exact hfound
  -- Whether a body is a message is decided by its text alone.
  · intro b hb
    obtain ⟨b', hb', heq⟩ : ∃ b' ∈ earlier, b'.text = b.text := by
      have hmem := List.mem_map_of_mem (f := (·.text)) hb
      rw [htexts] at hmem
      exact List.mem_map.1 hmem
    rw [← heq]
    exact hmessages b' hb'

/-! ### Faults of bodies -/

/-- Parsing fails where the walk through all depths does. -/
theorem parse_eq_error_iff {text : String} {e : ParseError} :
    parse text = .error e ↔ allElements text.toList = .error e.fault ∧ e.source = text := by
  obtain ⟨fault, source⟩ := e
  rw [parse]
  cases allElements text.toList with
  | error f => simp [eq_comm]
  | ok found => simp

/-- The fault of a body that is cut out is the fault of the text. -/
theorem Cuts.allElements_eq_error (h : Cuts text body)
    (hbody : allElements body.text = .error fault) :
    allElements text = .error (fault.shift body.start) := by
  obtain ⟨earlier, later, hbodies, hmessages⟩ := h
  have hearlier : ∃ found, gather (earlier.map Body.elements) = .ok found := by
    refine ⟨_, (gather_map_eq_ok_iff (g := fun b => elementsIn (String.ofList b.text)) ?_).2
      ⟨?_, rfl⟩⟩
    · intro b _ part hpart
      rw [Body.elements_eq_ok_iff] at hpart
      exact (elementsIn_eq (by rwa [String.toList_ofList])).symm
    · intro b hb
      have hmessage := isMessage_iff.1 (hmessages b hb)
      rwa [String.toList_ofList, ← Body.elements_eq_ok_iff] at hmessage
  have hfault : body.elements = .error (fault.shift body.start) := by
    rw [Body.elements, hbody]
    rfl
  rw [allElements_eq, Outline.elementsWith_eq_error_iff, hbodies, List.map_append,
    List.append_assoc, gather_append_eq_error_iff]
  refine .inr ⟨hearlier, ?_⟩
  rw [List.map_cons, List.cons_append, gather_cons_eq_error_iff]
  exact .inl hfault

/-- The fault of a body that parsing gets to is the fault of the text, at every depth. -/
theorem Reaches.allElements_eq_error (h : Reaches text body)
    (hbody : allElements body.text = .error fault) :
    allElements text = .error (fault.shift body.start) := by
  induction h generalizing fault with
  | here hcuts => exact hcuts.allElements_eq_error hbody
  | @inside text outer body hcuts _ ih =>
      rw [hcuts.allElements_eq_error (ih hbody)]
      simp only [Fault.shift, Nat.add_assoc]

/-- Every fault of a text is found while one level is read, that of the text itself or that of a body
that parsing gets to. -/
theorem exists_reached {text : List Char} {fault : Fault} (h : allElements text = .error fault) :
    ∃ body f, (body = ⟨0, text⟩ ∨ Reaches text body) ∧
      (Outline.ofChars body.text).fault = some f ∧ fault = f.shift body.start := by
  rcases fault_of_allElements h with hfault | ⟨earlier, b, later, f, hbodies, hearlier, hf, rfl⟩
  · exact ⟨⟨0, text⟩, fault, .inl rfl, hfault, by simp [Fault.shift]⟩
  · have hcuts : Cuts text b := by
      refine ⟨earlier, later, hbodies, fun b' hb' => ?_⟩
      obtain ⟨found, hfound⟩ := hearlier b' hb'
      rw [isMessage_iff, String.toList_ofList, hfound, elementsIn_eq]
      rwa [String.toList_ofList]
    have hlt : b.text.length < text.length := by
      obtain ⟨s, t, htext, -, -⟩ := hcuts.exists_append
      rw [htext]
      simp only [List.length_append, List.length_cons]
      omega
    obtain ⟨body, f', hreached, hfault, rfl⟩ := exists_reached hf
    rcases hreached with rfl | hreaches
    · refine ⟨b, f', .inr (.here hcuts), hfault, ?_⟩
      simp [Fault.shift]
    · refine ⟨_, f', .inr (.inside hcuts hreaches), hfault, ?_⟩
      simp only [Fault.shift, Nat.add_assoc]
  termination_by text.length

/-- The fault of a text shows at one of its characters or at its end. -/
theorem position_le_of_allElements (h : allElements text = .error fault) :
    fault.position ≤ text.length := by
  obtain ⟨body, f, hreached, hfault, rfl⟩ := exists_reached h
  have hposition := Outline.position_le (i := 0) hfault
  rcases hreached with rfl | hreaches
  · simpa [Fault.shift] using hposition
  · obtain ⟨s, t, htext, hstart, -⟩ := hreaches.exists_append
    have hlength := congrArg List.length htext
    simp only [List.length_append, List.length_cons] at hlength
    simp only [Fault.shift]
    omega

/-! ### Faults of messages -/

/-- Errors point into the text that was passed. A body that parsing gets to, at any depth, is what a
cursor at its start cuts out, and when it is no message by itself, its fault is that of the whole
text, moved by the start of the body. For a body of the text itself that holds with anything after
its closing brace. -/
theorem parse_located (text : String) :
    (∀ e, parse text = .error e → e.source = text ∧ e.fault.position ≤ text.length) ∧
    (∀ body, Reaches text.toList body →
      (⟨text, body.start⟩ : Cursor).readBalanced =
          (some (String.ofList body.text), ⟨text, body.start + body.text.length + 1⟩) ∧
        ∀ e, parse (String.ofList body.text) = .error e →
          parse text = .error ⟨e.fault.shift body.start, text⟩) ∧
    ∀ body, Cuts text.toList body → ∀ rest e, parse (String.ofList body.text) = .error e →
      let text' := String.ofList (text.toList.take (body.start + body.text.length + 1) ++ rest)
      parse text' = .error ⟨e.fault.shift body.start, text'⟩ := by
  have hinside : ∀ {text : String} {body : Body}, Reaches text.toList body →
      ∀ e, parse (String.ofList body.text) = .error e →
        parse text = .error ⟨e.fault.shift body.start, text⟩ := by
    intro text body hreaches e he
    have hfault := (parse_eq_error_iff.1 he).1
    rw [String.toList_ofList] at hfault
    exact parse_eq_error_iff.2 ⟨hreaches.allElements_eq_error hfault, rfl⟩
  refine ⟨?_, ?_, ?_⟩
  · intro e he
    obtain ⟨hfault, hsource⟩ := parse_eq_error_iff.1 he
    refine ⟨hsource, ?_⟩
    rw [← String.length_toList]
    exact position_le_of_allElements hfault
  · intro body hreaches
    refine ⟨?_, hinside hreaches⟩
    obtain ⟨s, t, htext, hstart, henclosed⟩ := hreaches.exists_append
    have hcursor := Cursor.readBalanced_of_enclosed (s := s) (t := t) henclosed
    rwa [← htext, ← hstart, String.ofList_toList] at hcursor
  · intro body hcuts rest e he
    obtain ⟨s, t, htext, hstart, henclosed⟩ := hcuts.exists_append
    have hbefore : text.toList.take body.start = s := by
      rw [htext, hstart, List.append_assoc, List.take_left]
    have hthrough : text.toList.take (body.start + body.text.length + 1) =
        s ++ body.text ++ ['}'] := by
      have hlength : body.start + body.text.length + 1 = (s ++ body.text ++ ['}']).length := by
        rw [hstart]
        simp only [List.length_append, List.length_cons, List.length_nil]
      have hsplit : text.toList = s ++ body.text ++ ['}'] ++ t := by simp [htext]
      rw [hlength, hsplit, List.take_left]
    have hcuts' := hcuts.replace henclosed rest
    rw [hbefore] at hcuts'
    dsimp only
    rw [hthrough]
    refine hinside (.here ?_) e he
    rw [String.toList_ofList, List.append_assoc _ ['}']]
    exact hcuts'

/-- A placeholder without a name two levels down is reported before the missing key after the outer
branch, and without it. -/
theorem parse_located_nested :
    let text := "\x7ba, select, k \x7b\x7bb, select, l \x7b \x7b\x7d\x7d\x7d\x7d ?"
    let outer : Body := ⟨15, "\x7bb, select, l \x7b \x7b\x7d\x7d\x7d".toList⟩
    let inner : Body := ⟨30, " \x7b\x7d".toList⟩
    let text' := String.ofList (text.toList.take 36 ++ [])
    Cuts text.toList outer ∧ Reaches text.toList inner ∧
      parse (String.ofList outer.text) = .error ⟨⟨.missingName, 16⟩, String.ofList outer.text⟩ ∧
      parse (String.ofList inner.text) = .error ⟨⟨.missingName, 1⟩, " \x7b\x7d"⟩ ∧
      (⟨text, 30⟩ : Cursor).readBalanced = (some " \x7b\x7d", ⟨text, 34⟩) ∧
      parse text = .error ⟨⟨.missingName, 31⟩, text⟩ ∧ 31 ≤ text.length ∧
      parse text' = .error ⟨⟨.missingName, 31⟩, text'⟩ := by
  intro text outer inner text'
  have houter : Cuts text.toList outer := ⟨[], [], by decide +kernel, by simp⟩
  have hwithin : Cuts outer.text ⟨15, inner.text⟩ := ⟨[], [], by decide +kernel, by simp⟩
  have hinner : Reaches text.toList inner := .inside houter (.here hwithin)
  have herror : parse (String.ofList outer.text) =
      .error ⟨⟨.missingName, 16⟩, String.ofList outer.text⟩ := by decide +kernel
  have herror' : parse (String.ofList inner.text) = .error ⟨⟨.missingName, 1⟩, " \x7b\x7d"⟩ := by
    decide +kernel
  obtain ⟨hposition, hreaches, hcuts⟩ := parse_located text
  obtain ⟨hcursor, hlocated⟩ := hreaches inner hinner
  have hparse := hlocated _ herror'
  exact ⟨houter, hinner, herror, herror', hcursor, hparse, (hposition _ hparse).2,
    hcuts outer houter [] _ herror⟩

end MessageFormat
