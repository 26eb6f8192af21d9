import MessageFormat.Proofs.Delivery

/-!
# Safe texts

Which texts may stand as branches of a construct that is written. A message may end in the middle
of a quoted span, or in an apostrophe that would quote a brace after it; a text is safe when it is a
message and does neither. `safe_iff` says that the safe texts are the enclosed messages, and
`parse_construct_iff` that a written construct is read back exactly when its branches are safe.
-/

namespace MessageFormat

open Grammar

/-- The text is a message that leaves nothing quoted after it. -/
structure Safe (text : String) : Prop where
  /-- It is a message. -/
  message : isMessage text = true
  /-- No quoted span is open at its end. -/
  closed : (quotingAfter .outside text.toList).inside = false
  /-- It does not end in an apostrophe that is neither doubled nor quoted. -/
  unpaired : (glyphs .outside text.toList).getLast? ≠ some (.bare '\'')

/-! ### Safe texts are enclosed -/

/-- Messages are balanced. -/
theorem balanced_of_isMessage {text : String} (h : isMessage text = true) :
    Balanced text.toList := by
  cases hparse : parse text with
  | error e =>
      rw [isMessage, hparse] at h
      cases h
  | ok m => exact (elements_of_parse hparse).balanced

/-- The safe texts are the messages that end at a closing brace after them. -/
theorem safe_iff {text : String} :
    Safe text ↔ isMessage text = true ∧ Enclosed 0 text.toList := by
  constructor
  · intro h
    exact ⟨h.message, (balanced_of_isMessage h.message).enclosed_iff.2 ⟨h.closed, h.unpaired⟩⟩
  · rintro ⟨hmessage, henclosed⟩
    obtain ⟨hclosed, hunpaired⟩ := (balanced_of_isMessage hmessage).enclosed_iff.1 henclosed
    exact ⟨hmessage, hclosed, hunpaired⟩

instance (text : String) : Decidable (Safe text) :=
  decidable_of_iff (isMessage text = true ∧ (quotingAfter .outside text.toList).inside = false ∧
      (glyphs .outside text.toList).getLast? ≠ some (.bare '\''))
    ⟨fun ⟨hmessage, hclosed, hunpaired⟩ => ⟨hmessage, hclosed, hunpaired⟩,
      fun h => ⟨h.message, h.closed, h.unpaired⟩⟩

/-! ### Written constructs -/

/-- The text is a message of one element with this content. -/
def ReadsAs (text : String) (c : Content) : Prop :=
  ∃ m, parse text = .ok m ∧ m.elements = [⟨c, 0, text.length⟩]

/-- A placeholder is read as itself when its branches are messages. -/
theorem Grammar.Placeholder.reads_as {text : String} {c : Content}
    (h : Placeholder text.toList c) (hbranches : ∀ b ∈ c.branches, isMessage b.text = true) :
    ReadsAs text c := by
  have helements : Elements 0 text.toList [⟨c, 0, text.length⟩] := by
    have hrule : Elements 0 (text.toList ++ []) _ := .placeholder h .nil
    rwa [List.append_nil, Nat.zero_add, String.length_toList] at hrule
  exact ⟨_, (parse_eq_ok_iff_of_elements helements).2 ⟨by simpa using hbranches, rfl⟩, rfl⟩

/-- The branches of what is read are safe. -/
theorem ReadsAs.safe {text : String} {c : Content} (h : ReadsAs text c) :
    ∀ b ∈ c.branches, Safe b.text := by
  obtain ⟨m, hparse, helements⟩ := h
  have hmem : (⟨c, 0, text.length⟩ : Element) ∈ m.elements := by
    rw [helements]
    exact List.mem_cons_self
  intro b hb
  refine safe_iff.2 ⟨?_, readsBack_iff.1 (readsBack_of_parse hparse hmem hb)⟩
  exact ((parse_eq_ok_iff_of_elements (elements_of_parse hparse)).1 hparse).1 _ hmem b hb

/-- Content that can be written when its branches are enclosed is read back exactly if they are
safe. -/
theorem Content.reads_as_written_iff {c : Content}
    (h : (∀ b ∈ c.branches, Enclosed 0 b.text.toList) → c.Printable) :
    ReadsAs c.written c ↔ ∀ b ∈ c.branches, Safe b.text := by
  refine ⟨ReadsAs.safe, fun hsafe => ?_⟩
  have hprintable := h fun b hb => (safe_iff.1 (hsafe b hb)).2
  exact (placeholder_of_printable hprintable).reads_as fun b hb => (hsafe b hb).message

/-- The names of branches are names or, by number, also an equals sign and a name. -/
def Named (selector : Selector) (branches : List Branch) : Prop :=
  ∀ b ∈ branches, Key selector b.key.toList []

/-- Completing variants adds no other names than those of categories. -/
theorem Named.complete {variants : List Branch} (h : Named .category variants) (o : Options)
    (kind : Plural.Kind) : Named .category (o.complete kind variants) := by
  intro b hb
  rcases Options.mem_complete hb with hb | hb
  · exact h b hb
  · obtain ⟨category, hkey⟩ := hb.key
    rw [hkey]
    exact category.key_name.at_end

/-- Named branches can be written when they are enclosed. -/
theorem Named.printable {selector : Selector} {branches : List Branch}
    (h : Named selector branches) (henclosed : ∀ b ∈ branches, Enclosed 0 b.text.toList) :
    ∀ b ∈ branches, b.Printable selector := by
  intro b hb
  exact ⟨(h b hb).before_char (by decide) [], henclosed b hb⟩

/-- A construct is read back as it was written, with its positive offset and its completed variants,
exactly if all of its branches are safe. -/
theorem parse_construct_iff {name : String} {variants options : List Branch} {offset : Option Int}
    (hname : Name name.toList [])
    (hoffset : ∀ n ∈ offset, n < (10 ^ Text.maxDigits : Nat))
    (hvariants : Named .category variants) (hoptions : Named .key options) (o : Options) :
    (ReadsAs (writePlural name offset (o.complete .cardinal variants))
        (.plural name (offset.filter (0 < ·)) (o.complete .cardinal variants)) ↔
      ∀ b ∈ o.complete .cardinal variants, Safe b.text) ∧
    (ReadsAs (writeOrdinal name (o.complete .ordinal variants))
        (.ordinal name (o.complete .ordinal variants)) ↔
      ∀ b ∈ o.complete .ordinal variants, Safe b.text) ∧
    (ReadsAs (writeSelect name options) (.select name options) ↔
      ∀ b ∈ options, Safe b.text) := by
  obtain ⟨name, rfl⟩ : ∃ cs, name = String.ofList cs := ⟨name.toList, String.ofList_toList.symm⟩
  rw [String.toList_ofList] at hname
  refine ⟨?_, ?_, ?_⟩
  · have hpositive : ∀ n ∈ offset.filter (0 < ·), 0 < n ∧ n < (10 ^ Text.maxDigits : Nat) := by
      intro n hn
      rw [Option.mem_def, Option.filter_eq_some_iff, decide_eq_true_eq] at hn
      exact ⟨hn.2, hoffset n hn.1⟩
    have hwritten := Content.reads_as_written_iff fun henclosed =>
      .plural hname hpositive ((hvariants.complete o .cardinal).printable henclosed)
    rwa [Content.written, writePlural, writeOffset_filter] at hwritten
  · have hwritten := Content.reads_as_written_iff fun henclosed =>
      .ordinal hname ((hvariants.complete o .ordinal).printable henclosed)
    exact hwritten
  · have hwritten := Content.reads_as_written_iff fun henclosed =>
      .select hname (hoptions.printable henclosed)
    exact hwritten

/-- Doubled, an apostrophe may end a branch; by itself it may not. -/
theorem parse_construct_final_apostrophes :
    let variants : List Branch := [⟨"offset", "l''"⟩, ⟨"=0", "\x7bx\x7d"⟩]
    let options : List Branch := [⟨"a", "l'"⟩]
    let o : Options := { language := "ru", completePlurals := true }
    let completed := o.complete .cardinal variants
    Name "n".toList [] ∧ (∀ n ∈ some (1 : Int), n < (10 ^ Text.maxDigits : Nat)) ∧
      Named .category variants ∧ Named .key options ∧
      ReadsAs (writePlural "n" (some 1) completed) (.plural "n" (some 1) completed) ∧
      ¬ ReadsAs (writeSelect "n" options) (.select "n" options) := by
  intro variants options o completed
  have hnames : ∀ name : List Char, name ≠ [] → name.all isNameChar = true → Name name [] :=
    fun name hne hchars => ⟨hne, List.all_eq_true.1 hchars, by simp⟩
  have hname : Name "n".toList [] := hnames _ (by decide) (by decide)
  have hoffset : ∀ n ∈ some (1 : Int), n < (10 ^ Text.maxDigits : Nat) := by
    intro n hn
    cases hn
    exact_mod_cast Nat.one_lt_pow (by decide) (by decide)
  have hvariants : Named .category variants := by
    intro b hb
    rcases List.mem_cons.1 hb with rfl | hb
    · exact .name (hnames _ (by decide) (by decide))
    · obtain rfl := List.mem_singleton.1 hb
      exact .exact (s := ['0']) (hnames _ (by decide) (by decide))
  have hoptions : Named .key options := by
    intro b hb
    obtain rfl := List.mem_singleton.1 hb
    exact .name (hnames _ (by decide) (by decide))
  obtain ⟨hplural, -, hselect⟩ := parse_construct_iff hname hoffset hvariants hoptions o
  refine ⟨hname, hoffset, hvariants, hoptions, hplural.2 ?_, ?_⟩
  · decide +kernel
  · rw [hselect]
    decide +kernel

end MessageFormat
