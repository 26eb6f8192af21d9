import MessageFormat.Pattern.Probe
import MessageFormat.Proofs.Nesting
import MessageFormat.Proofs.Tiling

/-!
# Constructs in a text

Where the constructs of a message stand in its text, at every depth (`Occurs`), and which of them
the quick look for branches is sure to notice. The text of a branch stands in the stretch of its
construct as it is, so the head of a construct is found in the whole message, however deep the
construct is. The quick look knows two spellings of a head, without a gap before the word and with
one space there; others are legal, and `hasBranchMarker_wide` shows a message with one that it
misses.
-/

namespace MessageFormat

open Grammar

/-! ### Stretches -/

/-- A part occurs in a text if the text has it as a stretch. -/
theorem occursIn_iff {part text : List Char} : occursIn part text = true ↔ part <:+: text := by
  induction text with
  | nil => simp [occursIn]
  | cons c rest ih =>
      rw [occursIn, Bool.or_eq_true, List.isPrefixOf_iff_prefix, ih, List.infix_cons_iff]

/-- What stands between two positions of a message is a stretch of its text. -/
theorem slice_within {text : String} {m : Message} (h : parse text = .ok m) (start stop : Nat) :
    (m.slice start stop).toList <:+: text.toList := by
  rw [Pattern.slice, source_of_parse h, String.toList_ofList]
  exact (List.drop_suffix _ _).isInfix.trans (List.take_prefix _ _).isInfix

/-- The text of a branch is a stretch of the list that it stands in. -/
theorem Grammar.BranchList.text_within {selector : Selector} {s : List Char}
    {branches : List Branch} (h : BranchList selector s branches) {b : Branch}
    (hb : b ∈ branches) : b.text.toList <:+: s := by
  induction h with
  | nil => cases hb
  | @cons w₁ key w₂ body s branches _ _ _ _ _ ih =>
      rcases List.mem_cons.1 hb with rfl | hb
      · exact ⟨w₁ ++ key ++ w₂ ++ ['{'], '}' :: s, by simp⟩
      · exact (ih hb).trans ⟨w₁ ++ key ++ w₂ ++ '{' :: body ++ ['}'], [], by simp⟩

/-- The text of a variant is a stretch of what follows the word of a plural. -/
theorem Grammar.Variants.text_within {s : List Char} {offset : Option Int} {variants : List Branch}
    (h : Variants s offset variants) {b : Branch} (hb : b ∈ variants) : b.text.toList <:+: s := by
  cases h with
  | plain h => exact h.text_within hb
  | comma h => exact (h.text_within hb).trans (List.suffix_cons _ _).isInfix
  | @offset w₁ w₂ w₃ number _ s _ _ _ _ _ _ h =>
      exact (h.text_within hb).trans
        ⟨',' :: (w₁ ++ "offset".toList ++ w₂ ++ ':' :: (w₃ ++ number)), [], by simp⟩

/-- The text of an option is a stretch of what follows the word of a select. -/
theorem Grammar.Choices.text_within {s : List Char} {options : List Branch} (h : Choices s options)
    {b : Branch} (hb : b ∈ options) : b.text.toList <:+: s := by
  cases h with
  | plain h => exact h.text_within hb
  | comma h => exact (h.text_within hb).trans (List.suffix_cons _ _).isInfix

/-! ### Heads -/

/-- The word of a construct. -/
def Content.word? : Content → Option String
  | .plural _ _ _ => some "plural"
  | .ordinal _ _ => some "selectordinal"
  | .select _ _ => some "select"
  | _ => none

/-- The text is a construct with this head: a name and a comma, and then the word of the construct
between two gaps. The `rest` of the text follows. -/
inductive Headed (c : Content) (gap gap' rest : List Char) : List Char → Prop where
  | intro {w₁ name w₂ word} :
      Blank w₁ → Name name (w₂ ++ [',']) → Blank w₂ → c.word? = some word →
      Blank gap → Blank gap' →
      Headed c gap gap' rest
        ('{' :: (w₁ ++ name ++ w₂ ++ ',' :: (gap ++ word.toList ++ gap' ++ rest)))

/-- The kind of a construct is its word between two gaps, and the texts of its branches stand in what
follows. -/
theorem Grammar.Kind.exists_word {name : String} {s : List Char} {c : Content}
    (h : Kind name s c) (hc : c.isPlural = true ∨ c.isSelect = true) :
    ∃ gap word gap' rest, s = gap ++ String.toList word ++ gap' ++ rest ∧
      c.word? = some word ∧ Blank gap ∧ Blank gap' ∧ ∀ b ∈ c.branches, b.text.toList <:+: rest := by
  cases h with
  | typed => simp [Content.isPlural, Content.isSelect] at hc
  | styled => simp [Content.isPlural, Content.isSelect] at hc
  | plural hw₁ _ hw₂ hvariants =>
      exact ⟨_, "plural", _, _, rfl, rfl, hw₁, hw₂, fun b hb => hvariants.text_within hb⟩
  | ordinal hw₁ _ hw₂ hvariants =>
      exact ⟨_, "selectordinal", _, _, rfl, rfl, hw₁, hw₂, fun b hb => hvariants.text_within hb⟩
  | select hw₁ _ hw₂ hchoices =>
      exact ⟨_, "select", _, _, rfl, rfl, hw₁, hw₂, fun b hb => hchoices.text_within hb⟩

/-- A construct has a head, and the texts of its branches stand in what follows. -/
theorem Grammar.Placeholder.headed {s : List Char} {c : Content} (h : Placeholder s c)
    (hc : c.isPlural = true ∨ c.isSelect = true) :
    ∃ gap gap' rest, Headed c gap gap' rest s ∧ ∀ b ∈ c.branches, b.text.toList <:+: rest := by
  cases h with
  | simple => simp [Content.isPlural, Content.isSelect] at hc
  | kind hw₁ hname hw₂ hkind =>
      obtain ⟨gap, word, gap', rest, rfl, hword, hgap, hgap', hwithin⟩ := hkind.exists_word hc
      refine ⟨gap, gap', rest ++ ['}'], ?_, fun b hb => ?_⟩
      · rw [List.append_assoc _ rest]
        exact .intro hw₁ hname hw₂ hword hgap hgap'
      · exact (hwithin b hb).trans (List.prefix_append _ _).isInfix

/-- What follows the head of a construct is a stretch of it. -/
theorem Headed.rest_within {c : Content} {gap gap' rest s : List Char}
    (h : Headed c gap gap' rest s) : rest <:+: s := by
  obtain @⟨w₁, name, w₂, word⟩ := h
  exact ⟨'{' :: (w₁ ++ name ++ w₂ ++ ',' :: (gap ++ word.toList ++ gap')), [], by simp⟩

/-! ### Constructs at every depth -/

/-- A construct stands in a message, at some depth, as the stretch of text `written`. -/
inductive Occurs : String → List Char → Content → Prop where
  | here {text m e} :
      parse text = .ok m → e ∈ m.elements →
      (e.content.isPlural = true ∨ e.content.isSelect = true) →
      Occurs text (m.slice e.start e.stop).toList e.content
  | inside {text m e b written c} :
      parse text = .ok m → e ∈ m.elements → b ∈ e.content.branches →
      Occurs b.text written c → Occurs text written c

/-- Constructs are placeholders. -/
theorem Content.isPlaceholder_of_construct {c : Content}
    (hc : c.isPlural = true ∨ c.isSelect = true) : c.isPlaceholder = true := by
  cases c <;> simp_all [isPlural, isSelect, isPlaceholder]

/-- A branch of a message stands in the text of the message. -/
theorem branch_within {text : String} {m : Message} (h : parse text = .ok m) {e : Element}
    (he : e ∈ m.elements) {b : Branch} (hb : b ∈ e.content.branches) :
    b.text.toList <:+: text.toList := by
  have hc := Content.construct_of_branch hb
  obtain ⟨gap, gap', rest, hhead, hwithin⟩ :=
    (placeholder_slice h he (Content.isPlaceholder_of_construct hc)).headed hc
  exact ((hwithin b hb).trans hhead.rest_within).trans (slice_within h _ _)

/-- A construct stands in the text of the message, however deep it is. -/
theorem Occurs.within {text : String} {written : List Char} {c : Content}
    (h : Occurs text written c) : written <:+: text.toList := by
  induction h with
  | here hm _ _ => exact slice_within hm _ _
  | inside hm he hb _ ih => exact ih.trans (branch_within hm he hb)

/-- A construct has a head, however deep it is. -/
theorem Occurs.headed {text : String} {written : List Char} {c : Content}
    (h : Occurs text written c) : ∃ gap gap' rest, Headed c gap gap' rest written := by
  induction h with
  | here hm he hc =>
      obtain ⟨gap, gap', rest, hhead, -⟩ :=
        (placeholder_slice hm he (Content.isPlaceholder_of_construct hc)).headed hc
      exact ⟨gap, gap', rest, hhead⟩
  | inside _ _ _ _ ih => exact ih

/-- A message has a construct at some depth exactly if there is one among its elements. -/
theorem isComplex_iff_occurs {text : String} {m : Message} (h : parse text = .ok m) :
    m.isComplex = true ↔ ∃ written c, Occurs text written c := by
  rw [(unites_of_parse h).complex]
  constructor
  · rintro ⟨e, he, hc⟩
    exact ⟨_, _, .here h he hc⟩
  · rintro ⟨written, c, hoccurs⟩
    cases hoccurs with
    | here hm he hc =>
        obtain rfl := Except.ok.inj (h.symm.trans hm)
        exact ⟨_, he, hc⟩
    | inside hm he hb _ =>
        obtain rfl := Except.ok.inj (h.symm.trans hm)
        exact ⟨_, he, Content.construct_of_branch hb⟩

/-! ### The quick look -/

/-- The quick look notices a text with a brace in which one of its spellings occurs. -/
theorem hasBranchMarker_of_within {text : String} {marker : String} (hmarker : marker ∈ branchMarkers)
    (hwithin : marker.toList <:+: text.toList) (hbrace : '{' ∈ text.toList) :
    hasBranchMarker text = true := by
  rw [hasBranchMarker, Bool.and_eq_true, List.any_eq_true, List.contains_iff_mem]
  exact ⟨hbrace, marker, hmarker, occursIn_iff.2 hwithin⟩

/-- A head with one of the two usual gaps, and with a comma right after the word, has one of the
spellings that the quick look knows. -/
theorem Headed.exists_marker {c : Content} {gap rest s : List Char}
    (h : Headed c gap [] (',' :: rest) s) (hgap : gap = [] ∨ gap = [' ']) :
    ∃ marker ∈ branchMarkers, marker.toList <:+: s := by
  obtain @⟨w₁, name, w₂, word, -, -, -, hword⟩ := h
  refine ⟨"," ++ String.ofList gap ++ word ++ ",", ?_, ?_⟩
  · cases c <;> simp only [Content.word?, Option.some.injEq, reduceCtorEq] at hword <;>
      subst hword <;> rcases hgap with rfl | rfl <;> decide
  · exact ⟨'{' :: (w₁ ++ name ++ w₂), rest, by simp⟩

/-- A message has constructs exactly if some construct occurs in its text. Each of them has a head,
and if one of them, at any depth, has a head with one of the two usual gaps, and with a comma right
after the word, then the quick look notices the message. -/
theorem hasBranchMarker_of_usual {text : String} {m : Message} (h : parse text = .ok m) :
    (m.isComplex = true ↔ ∃ written c, Occurs text written c) ∧
      (∀ written c, Occurs text written c → ∃ gap gap' rest, Headed c gap gap' rest written) ∧
      ∀ written c gap rest, Occurs text written c → Headed c gap [] (',' :: rest) written →
        gap = [] ∨ gap = [' '] → hasBranchMarker text = true := by
  refine ⟨isComplex_iff_occurs h, fun written c => Occurs.headed, ?_⟩
  intro written c gap rest hoccurs hhead hgap
  obtain ⟨marker, hmarker, hwithin⟩ := hhead.exists_marker hgap
  refine hasBranchMarker_of_within hmarker (hwithin.trans hoccurs.within) ?_
  obtain @⟨w₁, name, w₂, word⟩ := hhead
  exact hoccurs.within.subset List.mem_cons_self

/-- A plural in the usual spelling inside a select that has no comma after its word. -/
theorem hasBranchMarker_inside_select :
    let text := "\x7bg,select other \x7b\x7bn, plural, other \x7bx\x7d\x7d\x7d\x7d"
    let inner := "\x7bn, plural, other \x7bx\x7d\x7d"
    let content : Content := .plural "n" none [⟨"other", "x"⟩]
    ∃ m, parse text = .ok m ∧ Occurs text inner.toList content ∧
      Headed content [' '] [] (',' :: " other \x7bx\x7d\x7d".toList) inner.toList ∧
      hasBranchMarker text = true := by
  intro text inner content
  let m : Message := ⟨⟨inner, [⟨content, 0, 22⟩]⟩, ["n"], true, false⟩
  have hinner : parse inner = .ok m := by decide +kernel
  have hparse : parse text = .ok
      ⟨⟨text, [⟨.select "g" [⟨"other", inner⟩], 0, 41⟩]⟩, ["g", "n"], true, true⟩ := by
    decide +kernel
  have hslice : m.slice 0 22 = inner := by decide +kernel
  have hhere := Occurs.here (m := m) (e := ⟨content, 0, 22⟩) hinner List.mem_cons_self (.inl rfl)
  rw [hslice] at hhere
  have hoccurs : Occurs text inner.toList content :=
    .inside hparse List.mem_cons_self List.mem_cons_self hhere
  have hname : Name ['n'] [','] :=
    ⟨List.cons_ne_nil _ _, List.all_eq_true.1 rfl, forall_head?_cons rfl⟩
  have htext : inner.toList = '{' :: ([] ++ ['n'] ++ [] ++
      ',' :: ([' '] ++ "plural".toList ++ [] ++ ',' :: " other \x7bx\x7d\x7d".toList)) := by
    decide +kernel
  have hhead : Headed content [' '] [] (',' :: " other \x7bx\x7d\x7d".toList) inner.toList := by
    rw [htext]
    exact .intro .nil hname .nil rfl .space .nil
  exact ⟨_, hparse, hoccurs, hhead,
    (hasBranchMarker_of_usual hparse).2.2 _ _ _ _ hoccurs hhead (.inr rfl)⟩

/-- A plural with two spaces before its word is not noticed. -/
theorem hasBranchMarker_wide :
    let text := "\x7bn,  plural, other \x7bx\x7d\x7d"
    ∃ m, parse text = .ok m ∧ m.isComplex = true ∧ hasBranchMarker text = false := by
  intro text
  let m : Message :=
    ⟨⟨text, [⟨.plural "n" none [⟨"other", "x"⟩], 0, 23⟩]⟩, ["n"], true, false⟩
  have hm : parse text = .ok m := by decide +kernel
  exact ⟨m, hm, rfl, by decide +kernel⟩

end MessageFormat
