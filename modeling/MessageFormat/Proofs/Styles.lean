import MessageFormat.Proofs.SafeTexts

/-!
# Styles that are written

An argument is written with its style directly before the closing brace, without the blanks that
stood around it. When the style ends in an apostrophe that is neither doubled nor quoted, that
apostrophe quotes the brace. `parse_writeArgument` says that every other argument is read back as it
was, and that these are rejected.
-/

namespace MessageFormat

open Grammar

/-- An argument with a type and a style, as it is written. -/
theorem toList_writeArgument {name type style : List Char} (htype : type ≠ []) (hstyle : style ≠ []) :
    (writeArgument (String.ofList name) (some (String.ofList type))
        (some (String.ofList style))).toList =
      '{' :: ((name ++ [',', ' '] ++ type ++ [',', ' ']) ++ (style ++ ['}'])) := by
  rw [writeArgument, given?_ofList htype, given?_ofList hstyle]
  simp [toList_braced]

/-- After a style that ends in an apostrophe by itself the opening brace stays open. -/
theorem isMessage_writeArgument {name type style : List Char} (hname : Plain name)
    (htype : Plain type) (hne : type ≠ []) (hstyle : Balanced style)
    (hbare : (glyphs .outside style).getLast? = some (.bare '\'')) :
    isMessage (writeArgument (String.ofList name) (some (String.ofList type))
      (some (String.ofList style))) = false := by
  have hne' : style ≠ [] := by
    rintro rfl
    cases hbare
  have hcomma : Plain [',', ' '] :=
    (plain_singleton (by decide)).append (plain_singleton (by decide))
  rw [← Bool.not_eq_true]
  intro hmessage
  have hclosed := balanced_iff.1 (balanced_of_isMessage hmessage)
  rw [toList_writeArgument hne hne', openAfter_open_brace,
    openAfter_plain (((hname.append hcomma).append htype).append hcomma),
    openAfter_append_close hbare] at hclosed
  have hopen := openAfter_add (balanced_iff.1 hstyle) 1
  rw [Nat.zero_add] at hopen hclosed
  rw [hopen] at hclosed
  cases hclosed

/-- An argument of a message is read back as it was from its written form, unless its style ends in
an apostrophe by itself; then the written form is no message. -/
theorem parse_writeArgument {text : String} {m : Message} {e : Element} {name : String}
    {type style : Option String} (h : parse text = .ok m) (he : e ∈ m.elements)
    (hcontent : e.content = .argument name type style) :
    (e.content.StyleClosed → ReadsAs (writeArgument name type style) e.content) ∧
      (¬ e.content.StyleClosed → isMessage (writeArgument name type style) = false) := by
  obtain ⟨s, hrule⟩ := (elements_of_parse h).placeholder_of_mem he (by rw [hcontent]; rfl)
  rw [hcontent] at hrule ⊢
  constructor
  · intro hclosed
    have hprintable := (printable_iff_of_placeholder hrule).2 hclosed
    exact (placeholder_of_printable hprintable).reads_as fun b hb => nomatch hb
  · intro hopen
    cases hrule with
    | simple => exact absurd (Content.style_closed_of_no_style _ _) hopen
    | kind _ hname _ hkind =>
        cases hkind with
        | typed => exact absurd (Content.style_closed_of_no_style _ _) hopen
        | @styled _ type _ format _ htype _ _ hformat =>
            rw [style?] at hopen ⊢
            split at hopen
            · exact absurd (Content.style_closed_of_no_style _ _) hopen
            · next hne =>
              rw [if_neg hne]
              have hbare : (glyphs .outside (Text.strip format)).getLast? = some (.bare '\'') := by
                simpa [Content.StyleClosed] using hopen
              exact isMessage_writeArgument hname.plain htype.plain htype.ne_nil
                hformat.balanced_strip hbare

/-- A doubled apostrophe at the end of a style is read back, one by itself is not. -/
theorem parse_writeArgument_final_apostrophes :
    let doubled : Content := .argument "n" (some "number") (some "x''")
    let single : Content := .argument "n" (some "number") (some "x'")
    let m : Message :=
      ⟨⟨"\x7bn, number, x''\x7d\x7bn, number, x' \x7d", [⟨doubled, 0, 16⟩, ⟨single, 16, 32⟩]⟩, ["n"],
        false, false⟩
    parse m.source = .ok m ∧
      (doubled.StyleClosed ∧ ReadsAs (writeArgument "n" (some "number") (some "x''")) doubled) ∧
      ¬ single.StyleClosed ∧
        isMessage (writeArgument "n" (some "number") (some "x'")) = false := by
  intro doubled single m
  have hparse : parse m.source = .ok m := by decide +kernel
  have hdoubled : doubled.StyleClosed := by decide +kernel
  have hsingle : ¬ single.StyleClosed := by decide +kernel
  refine ⟨hparse, ⟨hdoubled, ?_⟩, hsingle, ?_⟩
  · exact (parse_writeArgument (e := ⟨doubled, 0, 16⟩) hparse (by simp [m]) rfl).1 hdoubled
  · exact (parse_writeArgument (e := ⟨single, 16, 32⟩) hparse (by simp [m]) rfl).2 hsingle

/-- The style `x'` stands before a blank in this message, and directly before the closing brace in the
written argument, which is no message. -/
theorem parse_writeArgument_blank_lost :
    let m : Message :=
      ⟨⟨"\x7bn, number, x' \x7d", [⟨.argument "n" (some "number") (some "x'"), 0, 16⟩]⟩, ["n"], false,
        false⟩
    parse m.source = .ok m ∧
      parse (writeArgument "n" (some "number") (some "x'")) =
        .error ⟨⟨.unmatchedBraces, 15⟩, "\x7bn, number, x'\x7d"⟩ := by
  decide +kernel

end MessageFormat
