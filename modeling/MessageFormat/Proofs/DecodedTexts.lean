import MessageFormat.Proofs.Readers
import MessageFormat.Proofs.Tiling

/-!
# Decoded texts

Decoding a text has one meaning. What a message says in one of its texts is what a cursor reads
from the stretch of that text alone (`parse_text_decoded`), although the character that follows the
stretch in the message, and may have decided what its last apostrophe means, is missing there.
-/

namespace MessageFormat

open Grammar

/-- No glyph of a text ends a stretch. -/
theorem upTo_of_text {gs : List Glyph} (h : ∀ g ∈ gs, g.isText = true) (depth : Nat) :
    upTo (fun _ => false) depth gs = gs := by
  have hclosing : closing depth (gs ++ []) = none := closing_append_of_text h
  rw [List.append_nil] at hclosing
  exact upTo_of_closing_eq_none hclosing

/-- A run of text is read whole, as it is written or as the text that it stands for. -/
theorem scanUntil_of_text_run {s v : List Char} (h : TextRun none s v) (raw : Bool) (depth : Nat) :
    scanUntil (fun _ => false) raw depth s = ⟨if raw then s else v, s.length⟩ := by
  obtain ⟨gs, hgs⟩ := h.text_glyphs (t := [])
  have hglyphs : glyphs .outside s = gs := by
    have heq := hgs.glyphs_eq
    rwa [List.append_nil, MessageFormat.glyphs, List.append_nil] at heq
  rw [scanUntil_eq, hglyphs, upTo_of_text hgs.is_text, Stretch.ofGlyphs, hgs.spell_eq,
    hgs.decode_eq, hgs.length_eq]

/-- A cursor at the start of a run of text reads all of it and stops at the end. -/
theorem Cursor.readUntil_of_text_run {s : String} {v : List Char} (h : TextRun none s.toList v)
    (raw : Bool) :
    (ofString s).readUntil (fun _ => false) raw =
      (String.ofList (if raw then s.toList else v), ⟨s, s.length⟩) := by
  have hread : scanUntil (fun _ => false) raw 0 (ofString s).rest =
      ⟨if raw then s.toList else v, s.toList.length⟩ := scanUntil_of_text_run h raw 0
  rw [readUntil, hread, String.length_toList]
  show (_, (⟨s, 0 + s.length⟩ : Cursor)) = _
  rw [Nat.zero_add]

/-- A text of a message is a run of text that stands for its value. -/
theorem text_run_slice {text : String} {m : Message} (h : parse text = .ok m) {e : Element}
    (he : e ∈ m.elements) {value : String} (hvalue : e.content = .text value) :
    TextRun none (m.slice e.start e.stop).toList value.toList := by
  have hcontents : [(⟨e.content, 0, e.stop - e.start⟩ : Element)].map (·.content) =
      [value].map .text := by rw [hvalue]; rfl
  simpa [String.join] using (elements_slice h he).text_run hcontents

/-- A text of a message is what a cursor reads from its stretch of the message alone. Decoding the
quotes gives the value of the text, and reading raw gives the stretch; either goes to the end. -/
theorem parse_text_decoded {text : String} {m : Message} (h : parse text = .ok m) {e : Element}
    (he : e ∈ m.elements) {value : String} (hvalue : e.content = .text value) :
    let stretch := (Cursor.ofString text).slice e.start e.stop
    let c := Cursor.ofString stretch
    c.readUntil (fun _ => false) false = (value, ⟨stretch, stretch.length⟩) ∧
      c.readUntil (fun _ => false) true = (stretch, ⟨stretch, stretch.length⟩) := by
  intro stretch c
  have hslice : m.slice e.start e.stop = stretch := by
    rw [Pattern.slice, source_of_parse h]
    rfl
  have hrun := text_run_slice h he hvalue
  rw [hslice] at hrun
  have hdecoded := Cursor.readUntil_of_text_run hrun false
  have hraw := Cursor.readUntil_of_text_run hrun true
  rw [if_neg (by decide), String.ofList_toList] at hdecoded
  rw [if_pos rfl, String.ofList_toList] at hraw
  exact ⟨hdecoded, hraw⟩

/-- A span that is closed before a placeholder, and one that is left open at the end. -/
theorem parse_text_decoded_spans :
    let text := "a''b'|'\x7bn\x7d'\x7bx''"
    let m : Message := ⟨⟨text, [⟨.text "a'b|", 0, 7⟩, ⟨.argument "n" none none, 7, 10⟩,
      ⟨.text "\x7bx'", 10, 15⟩]⟩, ["n"], false, false⟩
    let first := (Cursor.ofString text).slice 0 7
    let last := (Cursor.ofString text).slice 10 15
    parse text = .ok m ∧
      ((Cursor.ofString first).readUntil (fun _ => false) false =
          ("a'b|", ⟨first, first.length⟩) ∧
        (Cursor.ofString first).readUntil (fun _ => false) true =
          (first, ⟨first, first.length⟩)) ∧
      (Cursor.ofString last).readUntil (fun _ => false) false =
          ("\x7bx'", ⟨last, last.length⟩) ∧
        (Cursor.ofString last).readUntil (fun _ => false) true = (last, ⟨last, last.length⟩) := by
  intro text m first last
  have hm : parse text = .ok m := by decide +kernel
  have hfirst : ⟨.text "a'b|", 0, 7⟩ ∈ m.elements := by decide +kernel
  have hlast : ⟨.text "\x7bx'", 10, 15⟩ ∈ m.elements := by decide +kernel
  exact ⟨hm, parse_text_decoded hm hfirst rfl, parse_text_decoded hm hlast rfl⟩

end MessageFormat
