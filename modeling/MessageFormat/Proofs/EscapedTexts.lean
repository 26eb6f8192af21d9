import MessageFormat.Proofs.Rebuilding

/-!
# Escaped texts in a message

Where `parse` reads an escaped text back: as a whole message, and before a plain argument. Both are
questions about runs of text only (`parses_to_texts_iff`, `parses_to_argument_iff`), because
neighbouring texts are always one element and the argument starts at the last opening brace. Which
texts are read back is then `unescapes` (`parse_escape_iff`). An apostrophe right after a brace can
be in the way, as in the braced text of `not_parses_to_escape_quoted_close`.
-/

namespace MessageFormat

open Grammar

variable {s t : List Char}

/-- The text elements that say a text: none if it is empty. -/
def textContents (text : String) : List Content :=
  if text = "" then [] else [.text text]

/-- The text is a message of elements with these contents. -/
def ParsesTo (text : String) (contents : List Content) : Prop :=
  ∃ m, parse text = .ok m ∧ m.elements.map (·.content) = contents

/-- Without branches, the elements that the grammar reads are all there is to parse. -/
theorem parses_to_iff {text : String} {contents : List Content}
    (hbranches : ∀ c ∈ contents, c.branches = []) :
    ParsesTo text contents ↔
      ∃ elements, Elements 0 text.toList elements ∧ elements.map (·.content) = contents := by
  constructor
  · rintro ⟨m, hparse, hcontents⟩
    exact ⟨m.elements, elements_of_parse hparse, hcontents⟩
  · rintro ⟨elements, helements, rfl⟩
    refine ⟨_, (parse_eq_ok_iff_of_elements helements).2 ⟨?_, rfl⟩, rfl⟩
    intro e he b hb
    rw [hbranches _ (List.mem_map_of_mem he)] at hb
    cases hb

/-- A text is cut in one way at the first place of a character. -/
theorem append_cons_inj {c : Char} {s s' t t' : List Char} (hs : c ∉ s) (hs' : c ∉ s')
    (h : s ++ c :: t = s' ++ c :: t') : s = s' ∧ t = t' := by
  induction s generalizing s' with
  | nil =>
      cases s' with
      | nil => exact ⟨rfl, (List.cons.inj h).2⟩
      | cons d s' => exact absurd ((List.cons.inj h).1 ▸ List.mem_cons_self) hs'
  | cons d s ih =>
      rw [List.mem_cons, not_or] at hs
      cases s' with
      | nil => exact absurd (List.cons.inj h).1.symm hs.1
      | cons d' s' =>
          obtain ⟨rfl, hrest⟩ := List.cons.inj h
          obtain ⟨rfl, rfl⟩ := ih hs.2 (fun hmem => hs' (List.mem_cons_of_mem _ hmem)) hrest
          exact ⟨rfl, rfl⟩

/-- A text is cut in one way at its last opening brace. -/
theorem append_open_inj {s s' t t' : List Char} (ht : '{' ∉ t) (ht' : '{' ∉ t')
    (h : s ++ '{' :: t = s' ++ '{' :: t') : s = s' ∧ t = t' := by
  have hreverse := congrArg List.reverse h
  simp only [List.reverse_append, List.reverse_cons, List.append_assoc, List.singleton_append]
    at hreverse
  obtain ⟨htail, hhead⟩ := append_cons_inj (by simpa using ht) (by simpa using ht') hreverse
  exact ⟨List.reverse_injective hhead, List.reverse_injective htail⟩

/-- In a plain argument there is one opening brace, the first character. -/
theorem Grammar.Placeholder.exists_of_simple {x : String}
    (h : Placeholder s (.argument x none none)) : ∃ t, s = '{' :: t ∧ '{' ∉ t := by
  have hopen : ∀ cs : List Char, Plain cs → '{' ∉ cs := fun cs h hmem => (h _ hmem).1 rfl
  cases h with
  | @simple w₁ name w₂ hw₁ hname hw₂ =>
      refine ⟨_, rfl, ?_⟩
      simp [hopen _ hw₁.plain, hopen _ hname.plain, hopen _ hw₂.plain]
  | kind _ _ _ hkind => cases hkind

/-- Elements that start with a text do not go on with one. -/
theorem Grammar.Elements.tail_of_text {pos : Nat} {value : String} {elements : List Element}
    {e : Element} (h : Elements pos s (e :: elements)) (he : e.content = .text value) :
    ∃ s' t', s = s' ++ t' ∧ TextRun t'.head? s' value.toList ∧ (∀ d ∈ t'.head?, d = '{') ∧
      Elements (pos + s'.length) t' elements := by
  cases h with
  | text _ hrun hnext hrest =>
      cases he
      exact ⟨_, _, rfl, by rwa [String.toList_ofList], hnext, hrest⟩
  | placeholder hrule =>
      cases he
      cases hrule.isPlaceholder

/-- Elements at an opening brace do not start with a text. -/
theorem Grammar.Elements.ne_text {pos : Nat} {elements : List Element}
    (h : Elements pos s elements) (hs : ∀ d ∈ s.head?, d = '{') :
    ∀ e ∈ elements.head?, e.content.isPlaceholder = true := by
  cases h with
  | nil => simp
  | text hne hrun =>
      obtain ⟨d, s', rfl⟩ := List.exists_cons_of_ne_nil hne
      exact absurd (congrArg some (hs d rfl)) hrun.head_ne
  | placeholder hrule => simpa using hrule.isPlaceholder

/-- A plain argument alone has one opening brace, the first character. -/
theorem Grammar.Elements.argument_only {pos : Nat} {x : String} {elements : List Element}
    (h : Elements pos s elements) (hcontents : elements.map (·.content) = [.argument x none none]) :
    ∃ u, s = '{' :: u ∧ '{' ∉ u := by
  obtain ⟨e, rfl, hcontent⟩ := List.map_eq_singleton_iff.1 hcontents
  cases h with
  | text => cases hcontent
  | placeholder hrule hrest =>
      cases hrest
      cases hcontent
      rw [List.append_nil]
      exact hrule.exists_of_simple

/-- There is nothing to read in no elements. -/
theorem Grammar.Elements.eq_nil {pos : Nat} (h : Elements pos s []) : s = [] := by
  cases h
  rfl

/-- An escaped text before other elements is one more element, or none. -/
theorem Grammar.Elements.escape_append {text : String} {elements : List Element}
    (h : Elements (escape text).toList.length t elements)
    (hrun : TextRun t.head? (escape text).toList text.toList) (ht : ∀ d ∈ t.head?, d = '{') :
    ∃ elements', Elements 0 ((escape text).toList ++ t) elements' ∧
      elements'.map (·.content) = textContents text ++ elements.map (·.content) := by
  rw [textContents]
  split
  · next hempty =>
    subst hempty
    exact ⟨elements, h, rfl⟩
  · next hempty =>
    rw [← Nat.zero_add (escape text).toList.length] at h
    refine ⟨_, .text (toList_escape_ne_nil hempty) hrun ht h, ?_⟩
    rw [String.ofList_toList]
    rfl

/-- Elements that are texts are a run of text, which says what they say together. -/
theorem Grammar.Elements.text_run {pos : Nat} {elements : List Element} {values : List String}
    (h : Elements pos s elements) (hcontents : elements.map (·.content) = values.map .text) :
    TextRun none s (String.join values).toList := by
  cases values with
  | nil =>
      obtain rfl := List.map_eq_nil_iff.1 hcontents
      rw [h.eq_nil]
      exact .nil
  | cons value values =>
      cases elements with
      | nil => cases hcontents
      | cons e elements =>
          obtain ⟨he, hothers⟩ := List.cons.inj hcontents
          obtain ⟨s', t, rfl, hrun, hnext, hrest⟩ := h.tail_of_text he
          cases values with
          | nil =>
              obtain rfl := List.map_eq_nil_iff.1 hothers
              obtain rfl := hrest.eq_nil
              simpa [String.join] using hrun
          | cons value' values =>
              -- The first text would go on with the second one.
              cases elements with
              | nil => cases hothers
              | cons e' elements =>
                  have hplace := hrest.ne_text hnext e' rfl
                  have htext : e'.content = .text value' := (List.cons.inj hothers).1
                  rw [htext] at hplace
                  cases hplace

/-- An escaped text is read as texts that make it up exactly if the written form says it. -/
theorem parses_to_texts_iff (text : String) :
    (∃ values : List String, ParsesTo (escape text) (values.map .text) ∧
      String.join values = text) ↔ TextRun none (escape text).toList text.toList := by
  constructor
  · rintro ⟨values, ⟨m, hparse, hcontents⟩, hvalues⟩
    have hrun := (elements_of_parse hparse).text_run hcontents
    rwa [hvalues] at hrun
  · intro h
    have hempty : Elements (escape text).toList.length [] [] := .nil
    obtain ⟨elements, helements, hcontents⟩ := hempty.escape_append h (by simp)
    rw [List.append_nil] at helements
    by_cases htext : text = ""
    · refine ⟨[], (parses_to_iff (by simp)).2 ⟨elements, helements, ?_⟩, htext.symm⟩
      rw [hcontents, textContents, if_pos htext]
      rfl
    · refine ⟨[text], (parses_to_iff (by simp [Content.branches])).2 ⟨elements, helements, ?_⟩,
        by simp [String.join]⟩
      rw [hcontents, textContents, if_neg htext]
      rfl

/-- An escaped text before an argument is read as the text and the argument exactly if the written
form says the text there. -/
theorem parses_to_argument_iff {x : String} (hx : Name x.toList []) (text : String) :
    ParsesTo (escape text ++ braced x) (textContents text ++ [.argument x none none]) ↔
      TextRun (some '{') (escape text).toList text.toList := by
  have hwritten : (escape text ++ braced x).toList =
      (escape text).toList ++ '{' :: (x.toList ++ ['}']) := by
    rw [String.toList_append, toList_braced]
  have hbranches : ∀ c ∈ textContents text ++ [.argument x none none], c.branches = [] := by
    rw [textContents]
    split <;> simp [Content.branches]
  rw [parses_to_iff hbranches, hwritten]
  constructor
  · rintro ⟨elements, helements, hcontents⟩
    have hopen : '{' ∉ x.toList ++ ['}'] := by
      have hplain : '{' ∉ x.toList := fun hmem => (hx.plain _ hmem).1 rfl
      simp [hplain]
    rw [textContents] at hcontents
    split at hcontents
    · next hempty =>
      subst hempty
      exact .nil
    · obtain ⟨e, rest, rfl, hcontent, hrest⟩ := List.map_eq_cons_iff.1 hcontents
      obtain ⟨s, t, heq, hrun, -, helements⟩ := helements.tail_of_text hcontent
      obtain ⟨u, rfl, hu⟩ := helements.argument_only hrest
      obtain ⟨rfl, -⟩ := append_open_inj hopen hu heq
      exact hrun
  · intro h
    have hplaceholder := placeholder_of_printable (.simple hx)
    rw [String.ofList_toList] at hplaceholder
    have hargument : Placeholder ('{' :: (x.toList ++ ['}'])) (.argument x none none) := by
      rwa [← toList_braced]
    have helements : Elements (escape text).toList.length ('{' :: (x.toList ++ ['}']) ++ []) _ :=
      .placeholder hargument .nil
    rw [List.append_nil] at helements
    exact helements.escape_append h (by simp)

/-- An escaped text is a message of texts that make it up exactly if each run of apostrophes after
a brace ends before `#`, before `|` or at the end, or if the span that such a run leaves open fits
the rest of the text; and it is read back before a plain argument exactly if each run of
apostrophes after a brace ends before `#`, before `|` or at the end. -/
theorem parse_escape_iff {x : String} (hx : Name x.toList []) (text : String) :
    ((∃ values : List String, ParsesTo (escape text) (values.map .text) ∧
        String.join values = text) ↔ unescapes true false text.toList = true) ∧
      (ParsesTo (escape text ++ braced x) (textContents text ++ [.argument x none none]) ↔
        unescapes false false text.toList = true) := by
  rw [parses_to_texts_iff, parses_to_argument_iff hx]
  have hend : ∀ d ∈ ([] : List Char).head?, isBrace d = true := by simp
  have hopen : ∀ d ∈ ['{'].head?, isBrace d = true := by simp [isBrace]
  exact ⟨text_run_escape_iff hend text, text_run_escape_iff hopen text⟩

/-- Braces and an apostrophe that is lost to none; and an apostrophe that leaves a span open to the
end of the message, which is read back alone but takes an argument for text. -/
theorem parse_escape_open_span :
    Name "n".toList [] ∧
      (∃ values : List String, ParsesTo (escape "it's \x7b0\x7d'#") (values.map .text) ∧
        String.join values = "it's \x7b0\x7d'#") ∧
      ParsesTo (escape "it's \x7b0\x7d'#" ++ braced "n")
        (textContents "it's \x7b0\x7d'#" ++ [.argument "n" none none]) ∧
      (∃ values : List String, ParsesTo (escape "\x7b'a") (values.map .text) ∧
        String.join values = "\x7b'a") ∧
      ¬ ParsesTo (escape "\x7b'a" ++ braced "n")
        (textContents "\x7b'a" ++ [.argument "n" none none]) := by
  have hchars : "n".toList.all isNameChar = true := by decide
  have hname : Name "n".toList [] := ⟨by decide, List.all_eq_true.1 hchars, by simp⟩
  obtain ⟨halone, hbefore⟩ := parse_escape_iff hname "it's \x7b0\x7d'#"
  obtain ⟨halone', hbefore'⟩ := parse_escape_iff hname "\x7b'a"
  refine ⟨hname, halone.2 ?_, hbefore.2 ?_, halone'.2 ?_, ?_⟩
  · decide +kernel
  · decide +kernel
  · decide +kernel
  · rw [hbefore']
    decide +kernel

/-- The apostrophe that ends the first run of braces is lost to the apostrophe of the text, and the
span that should quote the closing brace ends before it. -/
theorem not_parses_to_escape_quoted_close :
    escape "\x7b'a\x7d" = "'\x7b''a'\x7d'" ∧
      ∀ contents, ¬ ParsesTo (escape "\x7b'a\x7d") contents := by
  refine ⟨by decide +kernel, ?_⟩
  rintro contents ⟨m, hparse, -⟩
  have hno : isMessage (escape "\x7b'a\x7d") = false := by decide +kernel
  rw [isMessage, hparse] at hno
  cases hno

end MessageFormat
