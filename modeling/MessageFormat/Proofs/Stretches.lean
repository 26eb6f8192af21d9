import MessageFormat.Proofs.Readers

/-!
# Stretches of a text

Where the readings of a cursor end. Each of its loops finds what is found among the glyphs of the
text, and there a stretch without stop characters ends at the brace that closes the body. So the
raw reading, the decoding one and the search for the end of a body stop at the same place
(`Cursor.reads_agree`).
-/

namespace MessageFormat

namespace Cursor

variable {c : Cursor} {stops : Char → Bool} {q q' : Nat}

/-- From the cursor, a reading with these stop characters goes to the position `q`: raw it gives
the characters up to there, and decoding the quotes it moves the cursor to the same place. -/
structure ReadsTo (c : Cursor) (stops : Char → Bool) (q : Nat) : Prop where
  /-- The cursor moves forward. -/
  position_le : c.position ≤ q
  /-- It stays in the text. -/
  le_length : q ≤ c.source.length
  /-- The raw reading is the part of the text between the two positions. -/
  raw : c.readUntil stops true = (c.slice c.position q, ⟨c.source, q⟩)
  /-- The other one ends at the same position. -/
  decoded : (c.readUntil stops false).2 = ⟨c.source, q⟩

/-- A reading goes to one position only. -/
theorem ReadsTo.unique (h : c.ReadsTo stops q) (h' : c.ReadsTo stops q') : q = q' :=
  congrArg Cursor.position (h.decoded.symm.trans h'.decoded)

/-- What remains of the text after a cursor in it. -/
theorem position_add_length_rest (hc : c.position ≤ c.source.length) :
    c.position + c.rest.length = c.source.length := by
  rw [rest, List.length_drop, String.length_toList]
  omega

/-- A reading goes over the stretch that is found among the glyphs. -/
theorem readsTo_upTo (hc : c.position ≤ c.source.length) (stops : Char → Bool) :
    c.ReadsTo stops (c.position + (upTo stops 0 (glyphs .outside c.rest)).length) := by
  have hlength := position_add_length_rest hc
  have happend := upTo_append stops 0 (glyphs .outside c.rest)
  refine ⟨Nat.le_add_right _ _, ?_, ?_, ?_⟩
  · have hle := congrArg List.length happend
    rw [List.length_append, length_glyphs] at hle
    omega
  · rw [readUntil, scanUntil_eq, slice_rest, take_of_glyphs_append happend.symm]
    rfl
  · rw [readUntil, scanUntil_eq]
    rfl

/-- The glyph after a stretch is the character after its part of the text. -/
theorem getElem?_of_glyphs_append {body after : List Glyph} {g : Glyph}
    (h : glyphs .outside c.rest = body ++ g :: after) :
    c.source.toList[c.position + body.length]? = some g.char := by
  have hspell := spell_glyphs .outside c.rest
  rw [h, Glyph.spell, List.map_append, List.map_cons] at hspell
  rw [← List.getElem?_drop]
  show c.rest[body.length]? = some g.char
  rw [← hspell, List.getElem?_append_right (by simp), List.length_map, Nat.sub_self]
  rfl

/-- The two readings of a cursor that count braces are the same scanner. From every place in a
text, a reading without stop characters goes to the brace that closes the body which starts there,
or to the end of the text if no brace closes it; raw or not, every reading with stop characters
goes to the same position. -/
theorem reads_agree (source : String) (p : Nat) (hp : p ≤ source.length) :
    let c : Cursor := ⟨source, p⟩
    (∃ q, c.ReadsTo (fun _ => false) q ∧
      (q < source.length → source.toList[q]? = some '}' ∧
        c.readBalanced = (some (c.slice p q), ⟨source, q + 1⟩)) ∧
      (q = source.length → c.readBalanced = (none, ⟨source, source.length⟩))) ∧
    ∀ stops, ∃ q, c.ReadsTo stops q := by
  intro c
  refine ⟨?_, fun stops => ⟨_, readsTo_upTo hp stops⟩⟩
  have hreads := readsTo_upTo (c := c) hp (fun _ => false)
  have hlength := position_add_length_rest (c := c) hp
  cases hclosing : closing 0 (glyphs .outside c.rest) with
  | some found =>
      -- The brace that closes the body stands where the reading stops.
      obtain ⟨body, after⟩ := found
      have hbrace := getElem?_of_glyphs_append (append_of_closing hclosing)
      have hbody := readBalanced_of_closing hclosing
      rw [upTo_of_closing hclosing] at hreads
      obtain ⟨hlt, -⟩ := List.getElem?_eq_some_iff.1 hbrace
      rw [String.length_toList] at hlt
      rw [← take_of_glyphs_append (append_of_closing hclosing), ← slice_rest] at hbody
      exact ⟨_, hreads, fun _ => ⟨hbrace, hbody⟩, fun hend => absurd hend (Nat.ne_of_lt hlt)⟩
  | none =>
      -- Without such a brace the reading takes all that remains.
      have hbody := readBalanced_of_closing_eq_none hclosing
      rw [upTo_of_closing_eq_none hclosing, length_glyphs, hlength] at hreads
      rw [advance, hlength] at hbody
      exact ⟨_, hreads, fun hlt => absurd rfl (Nat.ne_of_lt hlt), fun _ => hbody⟩

/-- A body with a doubled apostrophe, a quoted brace, nested braces and an apostrophe that quotes
nothing, and a text that ends in an open span. -/
theorem reads_agree_quoted_braces :
    let source := "\x7b''c'\x7d'\x7bd\x7d'e\x7d'\x7bg\x7d"
    let c : Cursor := ⟨source, 1⟩
    let c' : Cursor := ⟨source, 13⟩
    (1 ≤ source.length ∧ c.ReadsTo (fun _ => false) 12 ∧ source.toList[12]? = some '}' ∧
        c.readBalanced = (some "''c'\x7d'\x7bd\x7d'e", ⟨source, 13⟩)) ∧
      13 ≤ source.length ∧ c'.ReadsTo (fun _ => false) 17 ∧
        c'.readBalanced = (none, ⟨source, 17⟩) := by
  intro source c c'
  have hlength : source.length = 17 := by decide +kernel
  have hreads : c.ReadsTo (fun _ => false) 12 := by
    refine ⟨by decide, ?_, by decide +kernel, by decide +kernel⟩
    show 12 ≤ source.length
    omega
  have hreads' : c'.ReadsTo (fun _ => false) 17 := by
    refine ⟨by decide, ?_, by decide +kernel, by decide +kernel⟩
    show 17 ≤ source.length
    omega
  obtain ⟨⟨q, hq, hbrace, -⟩, -⟩ := reads_agree source 1 (by omega)
  obtain ⟨⟨q', hq', -, hend⟩, -⟩ := reads_agree source 13 (by omega)
  obtain rfl := hq.unique hreads
  obtain rfl := hq'.unique hreads'
  obtain ⟨hchar, hbody⟩ := hbrace (by omega)
  have hslice : c.slice 1 12 = "''c'\x7d'\x7bd\x7d'e" := by decide +kernel
  rw [hslice] at hbody
  have hnone := hend hlength.symm
  rw [hlength] at hnone
  exact ⟨⟨by omega, hreads, hchar, hbody⟩, by omega, hreads', hnone⟩

end Cursor

end MessageFormat
