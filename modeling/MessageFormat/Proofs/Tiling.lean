import Mathlib.Data.List.Chain
import MessageFormat.Proofs.Balance
import MessageFormat.Proofs.EscapedTexts

/-!
# Tiled messages

Where the elements of a message stand. They cover it from its start to its end without gaps and
without overlaps, and what an element says is read from its own stretch of the message alone
(`Grammar.Elements.alone_of_mem`): a placeholder ends with its closing brace, and a text before a
placeholder is read in the same way at the end of a message.
-/

namespace MessageFormat

open Grammar

variable {i : Nat} {s t : List Char} {elements : List Element}

/-! ### Covering a message -/

/-- The elements cover the stretch from `start` to `stop` one after the other. -/
structure Tiles (start stop : Nat) (elements : List Element) : Prop where
  /-- The first one starts where the stretch does. -/
  first : ∀ e ∈ elements.head?, e.start = start
  /-- Each one ends where the next one starts. -/
  next : elements.IsChain fun a b => a.stop = b.start
  /-- The last one ends where the stretch does. -/
  last : ∀ e ∈ elements.getLast?, e.stop = stop
  /-- No one is empty. -/
  nonempty : ∀ e ∈ elements, e.start < e.stop
  /-- Of two neighbours one is no text. -/
  texts : elements.IsChain fun a b =>
    a.content.isPlaceholder = true ∨ b.content.isPlaceholder = true
  /-- There is none only in an empty stretch. -/
  empty : elements = [] ↔ start = stop

/-- Nothing covers an empty stretch. -/
theorem Tiles.nil (start : Nat) : Tiles start start [] where
  first := by simp
  next := .nil
  last := by simp
  nonempty := by simp
  texts := .nil
  empty := by simp

/-- One more element in front. -/
theorem Tiles.cons {stop : Nat} {e : Element} (h : Tiles e.stop stop elements)
    (hle : e.stop ≤ stop) (hlt : e.start < e.stop)
    (htexts : e.content.isPlaceholder = false →
      ∀ e' ∈ elements.head?, e'.content.isPlaceholder = true) :
    Tiles e.start stop (e :: elements) where
  first := by simp
  next := List.isChain_cons.2 ⟨fun e' he' => (h.first e' he').symm, h.next⟩
  last := by
    intro e' he'
    cases elements with
    | nil =>
        obtain rfl := Option.some.inj he'
        exact h.empty.1 rfl
    | cons e'' elements => exact h.last e' (by rwa [List.getLast?_cons_cons] at he')
  nonempty := by
    intro e' he'
    rcases List.mem_cons.1 he' with rfl | he'
    · exact hlt
    · exact h.nonempty e' he'
  texts := by
    refine List.isChain_cons.2 ⟨fun e' he' => ?_, h.texts⟩
    cases hplace : e.content.isPlaceholder with
    | true => exact .inl rfl
    | false => exact .inr (htexts hplace e' he')
  empty := by
    refine iff_of_false (List.cons_ne_nil e elements) ?_
    omega

/-- The elements of a text cover it. -/
theorem Grammar.Elements.tiles (h : Elements i s elements) : Tiles i (i + s.length) elements := by
  induction h with
  | nil => exact .nil _
  | @text pos s v t elements hs hrun ht hrest ih =>
      have hpos := List.length_pos_iff.2 hs
      rw [List.length_append, ← Nat.add_assoc]
      refine Tiles.cons (e := ⟨_, pos, pos + s.length⟩) ih (Nat.le_add_right _ _)
        (Nat.lt_add_of_pos_right hpos) fun _ => ?_
      exact hrest.ne_text ht
  | @placeholder pos s content t elements hrule hrest ih =>
      have hpos : 0 < s.length := by cases hrule <;> simp
      rw [List.length_append, ← Nat.add_assoc]
      refine Tiles.cons (e := ⟨content, pos, pos + s.length⟩) ih (Nat.le_add_right _ _)
        (Nat.lt_add_of_pos_right hpos) fun htext => ?_
      rw [hrule.isPlaceholder] at htext
      cases htext

/-! ### Single elements -/

/-- A run of text says the same at the end of a message, whatever follows it. -/
theorem Grammar.TextRun.at_end {next : Option Char} {v : List Char} (h : TextRun next s v) :
    TextRun none s v := by
  induction h with
  | nil => exact .nil
  | @cons s v t w hpiece _ ih =>
      refine .cons ?_ ih
      cases t with
      | nil => exact hpiece.at_end
      | cons c t => exact hpiece

/-- The element is the only one of its own stretch of the text `s`, which starts at `i`. -/
def Element.ReadAlone (i : Nat) (s : List Char) (e : Element) : Prop :=
  ∃ before stretch after, s = before ++ (stretch ++ after) ∧ e.start = i + before.length ∧
    e.stop = e.start + stretch.length ∧ Elements 0 stretch [⟨e.content, 0, stretch.length⟩]

/-- More text in front does not matter. -/
theorem Element.ReadAlone.append {e : Element} (h : e.ReadAlone (i + s.length) t) :
    e.ReadAlone i (s ++ t) := by
  obtain ⟨before, stretch, after, rfl, hstart, hstop, halone⟩ := h
  refine ⟨s ++ before, stretch, after, (List.append_assoc _ _ _).symm, ?_, hstop, halone⟩
  rw [hstart, List.length_append, Nat.add_assoc]

/-- Every element of a text is the only one of its own stretch. -/
theorem Grammar.Elements.alone_of_mem (h : Elements i s elements) {e : Element}
    (he : e ∈ elements) : e.ReadAlone i s := by
  induction h with
  | nil => cases he
  | @text pos s v t elements hs hrun _ _ ih =>
      rcases List.mem_cons.1 he with rfl | he
      · have halone : Elements 0 (s ++ []) _ := .text hs hrun.at_end (by simp) .nil
        rw [List.append_nil, Nat.zero_add] at halone
        exact ⟨[], s, t, rfl, rfl, rfl, halone⟩
      · exact (ih he).append
  | @placeholder pos s content t elements hrule _ ih =>
      rcases List.mem_cons.1 he with rfl | he
      · have halone : Elements 0 (s ++ []) _ := .placeholder hrule .nil
        rw [List.append_nil, Nat.zero_add] at halone
        exact ⟨[], s, t, rfl, rfl, rfl, halone⟩
      · exact (ih he).append

/-- Every element of a message is the only one of the stretch of the message between its
positions. -/
theorem elements_slice {text : String} {m : Message} (h : parse text = .ok m) {e : Element}
    (he : e ∈ m.elements) :
    Elements 0 (m.slice e.start e.stop).toList [⟨e.content, 0, e.stop - e.start⟩] := by
  obtain ⟨before, stretch, after, heq, hstart, hstop, halone⟩ :=
    (elements_of_parse h).alone_of_mem he
  rw [Nat.zero_add] at hstart
  have hslice : m.slice e.start e.stop = String.ofList stretch := by
    rw [hstop]
    refine slice_of_drop (t := after) ?_
    rw [source_of_parse h, heq, hstart, List.drop_left]
  rwa [hslice, String.toList_ofList, hstop, Nat.add_sub_cancel_left]

/-- A placeholder of a message is read from the stretch of the message between its positions. -/
theorem placeholder_slice {text : String} {m : Message} (hparse : parse text = .ok m) {e : Element}
    (he : e ∈ m.elements) (hplace : e.content.isPlaceholder = true) :
    Placeholder (m.slice e.start e.stop).toList e.content := by
  have helements := elements_slice hparse he
  generalize (m.slice e.start e.stop).toList = s at helements
  generalize e.content = content at helements hplace
  generalize e.stop - e.start = stop at helements
  cases helements with
  | text => cases hplace
  | @placeholder _ s _ t _ hrule hrest =>
      obtain rfl := hrest.eq_nil
      rwa [List.append_nil]

/-- The elements of a message cover it, and each of them is what its own stretch of the message is
parsed into. -/
theorem parse_tiles {text : String} {m : Message} (h : parse text = .ok m) :
    Tiles 0 text.length m.elements ∧
      ∀ e ∈ m.elements, ∃ m', parse (m.slice e.start e.stop) = .ok m' ∧
        m'.elements = [⟨e.content, 0, e.stop - e.start⟩] := by
  have helements := elements_of_parse h
  obtain ⟨hbranches, -⟩ := (parse_eq_ok_iff_of_elements helements).1 h
  refine ⟨?_, fun e he => ?_⟩
  · have htiles := helements.tiles
    rwa [Nat.zero_add, String.length_toList] at htiles
  · refine ⟨_, (parse_eq_ok_iff_of_elements (elements_slice h he)).2 ⟨?_, rfl⟩, rfl⟩
    simpa using hbranches e he

/-- A text that ends in a doubled apostrophe before a plural, and a span that is left open. -/
theorem parse_tiles_open_span :
    let text := "o''\x7bn, plural, other \x7b#\x7d\x7d'\x7b''"
    let m : Message := ⟨⟨text, [⟨.text "o'", 0, 3⟩,
      ⟨.plural "n" none [⟨"other", "#"⟩], 3, 25⟩, ⟨.text "\x7b'", 25, 29⟩]⟩, ["n"], true, false⟩
    parse text = .ok m ∧ Tiles 0 text.length m.elements ∧
      ∀ e ∈ m.elements, ∃ m', parse (m.slice e.start e.stop) = .ok m' ∧
        m'.elements = [⟨e.content, 0, e.stop - e.start⟩] := by
  intro text m
  have hm : parse text = .ok m := by decide +kernel
  exact ⟨hm, parse_tiles hm⟩

end MessageFormat
