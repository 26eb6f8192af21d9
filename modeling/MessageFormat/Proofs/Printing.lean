import MessageFormat.Pattern.Escape
import MessageFormat.Proofs.Branching
import MessageFormat.Proofs.Trimming
import MessageFormat.Rebuild.Written

/-!
# Printed placeholders

The written form of an argument or a construct is a placeholder of the grammar that says the same.
`Content.Printable` collects what is needed for that: names that are names, bodies that are
enclosed, an offset that is worth writing. `printable_of_placeholder` says that placeholders that
were read have it.
-/

namespace MessageFormat

open Grammar

variable {s : List Char}

/-- The selector of a branch can be written before a blank, and its text between braces. -/
structure Branch.Printable (selector : Selector) (b : Branch) : Prop where
  /-- The key selects a branch. -/
  key : Key selector b.key.toList [' ']
  /-- The text ends where the closing brace is put. -/
  text : Enclosed 0 b.text.toList

/-- The written form of the content says the same. -/
inductive Content.Printable : Content → Prop where
  | simple {name} : Name name [] → Printable (.argument (String.ofList name) none none)
  | typed {name type} :
      Name name [] → Name type [] → type ∉ constructWords →
      Printable (.argument (String.ofList name) (some (String.ofList type)) none)
  | styled {name type style} :
      Name name [] → Name type [] → type ∉ constructWords → Enclosed 0 style → style ≠ [] →
      Text.strip style = style →
      Printable (.argument (String.ofList name) (some (String.ofList type))
        (some (String.ofList style)))
  | plural {name variants} {offset : Option Int} :
      Name name [] → (∀ n ∈ offset, 0 < n ∧ n < (10 ^ Text.maxDigits : Nat)) →
      (∀ b ∈ variants, b.Printable .category) →
      Printable (.plural (String.ofList name) offset variants)
  | ordinal {name variants} :
      Name name [] → (∀ b ∈ variants, b.Printable .category) →
      Printable (.ordinal (String.ofList name) variants)
  | select {name options} :
      Name name [] → (∀ b ∈ options, b.Printable .key) →
      Printable (.select (String.ofList name) options)

/-- The content as it is written; text is escaped. -/
def Content.written : Content → String
  | .text value => escape value
  | .argument name type style => writeArgument name type style
  | .plural name offset variants => writePlural name offset variants
  | .ordinal name variants => writeOrdinal name variants
  | .select name options => writeSelect name options

/-! ### Branches -/

/-- A name ends before every character that is not of a name. -/
theorem Grammar.Name.before_char {rest : List Char} {c : Char} (h : Name s rest)
    (hc : isNameChar c = false) (t : List Char) : Name s (c :: t) :=
  ⟨h.ne_nil, h.chars, by simpa using hc⟩

/-- A name ends at the end. -/
theorem Grammar.Name.at_end {rest : List Char} (h : Name s rest) : Name s [] :=
  ⟨h.ne_nil, h.chars, by simp⟩

/-- A selector ends before every character that is not of a name. -/
theorem Grammar.Key.before_char {selector : Selector} {rest : List Char} {c : Char}
    (h : Key selector s rest) (hc : isNameChar c = false) (t : List Char) :
    Key selector s (c :: t) := by
  cases h with
  | name h => exact .name (h.before_char hc t)
  | exact h => exact .exact (h.before_char hc t)

/-- A selector ends at the end. -/
theorem Grammar.Key.at_end {selector : Selector} {rest : List Char} (h : Key selector s rest) :
    Key selector s [] := by
  cases h with
  | name h => exact .name h.at_end
  | exact h => exact .exact h.at_end

/-- Branches of the grammar can be written. -/
theorem Grammar.BranchList.printable {selector : Selector} {branches : List Branch}
    (h : BranchList selector s branches) : ∀ b ∈ branches, b.Printable selector := by
  induction h with
  | nil => simp
  | @cons w₁ key w₂ body s branches _ hkey _ hbody _ ih =>
      rw [List.forall_mem_cons]
      refine ⟨⟨?_, by rwa [String.toList_ofList]⟩, ih⟩
      rw [String.toList_ofList]
      exact hkey.before_char (by decide) []

/-- The text between a pair of braces. -/
theorem toList_braced (text : String) : (braced text).toList = '{' :: (text.toList ++ ['}']) := by
  simp [braced]

/-- Written branches are branches of the grammar. -/
theorem branch_list_of_printable {selector : Selector} {branches : List Branch}
    (h : ∀ b ∈ branches, b.Printable selector) :
    BranchList selector (String.join (branches.map writeBranch)).toList branches := by
  induction branches with
  | nil => exact .nil .nil
  | cons b branches ih =>
      rw [List.forall_mem_cons] at h
      have hkey : Key selector b.key.toList ([' '] ++ ['{']) := h.1.key.congr rfl
      have hcons := BranchList.cons .space hkey .space h.1.text (ih h.2)
      rw [String.ofList_toList, String.ofList_toList] at hcons
      rw [List.map_cons, String.join_cons]
      simpa [writeBranch, toList_braced] using hcons

/-! ### Placeholders that were read -/

/-- The style of an argument ends in an apostrophe. -/
def Content.endsInApostrophe : Content → Bool
  | .argument _ _ (some style) => style.toList.getLast? == some '\''
  | _ => false

/-- No style ends in an apostrophe by itself, which would quote what is put after it. -/
def Content.StyleClosed : Content → Prop
  | .argument _ _ style =>
    ∀ text ∈ style, (glyphs .outside text.toList).getLast? ≠ some (.bare '\'')
  | _ => True

instance : (content : Content) → Decidable content.StyleClosed
  | .argument _ _ style =>
    inferInstanceAs (Decidable (∀ text ∈ style,
      (glyphs .outside text.toList).getLast? ≠ some (.bare '\'')))
  | .text _ | .plural _ _ _ | .ordinal _ _ | .select _ _ => .isTrue trivial

/-- An argument without a style has none that could end in an apostrophe. -/
theorem Content.style_closed_of_no_style (name : String) (type : Option String) :
    (Content.argument name type none).StyleClosed := by
  rintro text ⟨⟩

/-- A style that does not end in an apostrophe does not end in one by itself. -/
theorem Content.style_closed_of_endsInApostrophe {content : Content}
    (h : content.endsInApostrophe = false) : content.StyleClosed := by
  cases content with
  | argument name type style =>
      rintro text rfl hbare
      have hlast : text.toList.getLast? = some '\'' := by
        rw [← spell_glyphs .outside text.toList, Glyph.spell, List.getLast?_map, hbare]
        rfl
      rw [endsInApostrophe, hlast] at h
      cases h
  | _ => trivial

/-- The content without an offset that is not positive, because such an offset is not written. -/
def Content.canonical : Content → Content
  | .plural name offset variants => .plural name (offset.filter (0 < ·)) variants
  | content => content

/-- The offset of a plural does not matter for styles. -/
theorem Content.style_closed_canonical_iff {content : Content} :
    content.canonical.StyleClosed ↔ content.StyleClosed := by
  cases content <;> rfl

/-- The style of an argument that can be written is closed. -/
theorem Content.Printable.style_closed {content : Content} (h : content.Printable) :
    content.StyleClosed := by
  cases h with
  | @styled name type style _ _ _ hstyle _ _ =>
      rintro text ⟨⟩
      rw [String.toList_ofList]
      exact (hstyle.balanced.enclosed_iff.1 hstyle).2
  | simple => exact style_closed_of_no_style _ _
  | typed => exact style_closed_of_no_style _ _
  | plural => trivial
  | ordinal => trivial
  | select => trivial

/-- Variants of the grammar can be written. -/
theorem Grammar.Variants.printable {offset : Option Int} {variants : List Branch}
    (h : Variants s offset variants) : ∀ b ∈ variants, b.Printable .category := by
  cases h with
  | plain h => exact h.printable
  | comma h => exact h.printable
  | offset _ _ _ _ _ h => exact h.printable

/-- Options of the grammar can be written. -/
theorem Grammar.Choices.printable {options : List Branch} (h : Choices s options) :
    ∀ b ∈ options, b.Printable .key := by
  cases h with
  | plain h => exact h.printable
  | comma h => exact h.printable

/-- A positive offset of the grammar can be written. -/
theorem Grammar.Variants.offset_lt {offset : Option Int} {variants : List Branch}
    (h : Variants s offset variants) :
    ∀ n ∈ offset.filter (0 < ·), 0 < n ∧ n < (10 ^ Text.maxDigits : Nat) := by
  intro n hn
  rw [Option.mem_def, Option.filter_eq_some_iff, decide_eq_true_eq] at hn
  cases h with
  | plain => cases hn.1
  | comma => cases hn.1
  | offset _ _ _ _ hnumber _ =>
      obtain rfl := Option.some.inj hn.1
      exact ⟨hn.2, hnumber.lt_pow⟩

/-- A placeholder of the grammar can be written exactly if its style does not reach into what is put
after it. -/
theorem printable_iff_of_placeholder {content : Content} (h : Placeholder s content) :
    content.canonical.Printable ↔ content.StyleClosed := by
  refine ⟨fun hprintable => Content.style_closed_canonical_iff.1 hprintable.style_closed, ?_⟩
  intro hclosed
  cases h with
  | simple _ hname _ => exact .simple hname.at_end
  | kind _ hname _ hkind =>
      have hname := hname.at_end
      cases hkind with
      | typed _ htype hword _ => exact .typed hname htype.at_end hword
      | @styled _ type _ format _ htype hword _ hformat =>
          -- An empty style is written like no style.
          rw [style?] at hclosed ⊢
          split at hclosed
          · next hempty =>
            rw [if_pos hempty]
            exact .typed hname htype.at_end hword
          · next hne =>
            rw [if_neg hne]
            have hunpaired := hclosed _ rfl
            rw [String.toList_ofList] at hunpaired
            have hstyle := hformat.strip_iff.2 hunpaired
            exact .styled hname htype.at_end hword hstyle hne (strip_strip format)
      | plural _ _ _ hvariants => exact .plural hname hvariants.offset_lt hvariants.printable
      | ordinal _ _ _ hvariants => exact .ordinal hname hvariants.printable
      | select _ _ _ hchoices => exact .select hname hchoices.printable

/-- A placeholder of the grammar can be written, unless its style ends in an apostrophe. -/
theorem printable_of_placeholder {content : Content} (h : Placeholder s content)
    (hstyle : content.endsInApostrophe = false) : content.canonical.Printable :=
  (printable_iff_of_placeholder h).2 (Content.style_closed_of_endsInApostrophe hstyle)

/-! ### Placeholders that are written -/

/-- A part that is present and not empty is given. -/
theorem given?_ofList {s : List Char} (h : s ≠ []) :
    given? (some (String.ofList s)) = some (String.ofList s) := by
  have hne : String.ofList s ≠ "" := by
    intro heq
    have := congrArg String.toList heq
    rw [String.toList_ofList] at this
    exact h this
  rw [given?, Option.filter_some, if_pos (by simpa using hne)]

/-- A construct is written as a name, a word, a comma, and what the word needs. -/
theorem toList_writeConstruct (name : List Char) (keyword head : String) (branches : List Branch) :
    (writeConstruct (String.ofList name) keyword head branches).toList =
      '{' :: ([] ++ name ++ [] ++ ',' :: (([' '] ++ keyword.toList ++ [] ++
        ',' :: (head.toList ++ (String.join (branches.map writeBranch)).toList)) ++ ['}'])) := by
  simp [writeConstruct, toList_braced]

/-- The words of constructs are names. -/
theorem name_of_construct_word {word : List Char} (h : word ∈ constructWords) :
    Name word [','] := by
  simp only [constructWords, List.mem_cons, List.not_mem_nil, or_false] at h
  rcases h with rfl | rfl | rfl
  all_goals exact ⟨List.cons_ne_nil _ _, List.all_eq_true.1 rfl, forall_head?_cons rfl⟩

/-- Decimal digits are name characters. -/
theorem isNameChar_of_isDigit {c : Char} (h : c.isDigit = true) : isNameChar c = true := by
  simp [isNameChar, Char.isAlphanum, h]

/-- The decimal form of a number is a name before written branches. -/
theorem name_toDigits (n : Nat) (branches : List Branch) :
    Name (Nat.toDigits 10 n) (String.join (branches.map writeBranch)).toList := by
  refine ⟨Nat.toDigits_ne_nil, ?_, ?_⟩
  · intro c hc
    exact isNameChar_of_isDigit (Nat.isDigit_of_mem_toDigits (by decide) (by decide) hc)
  · cases branches with
    | nil => simp
    | cons b branches =>
        rw [List.map_cons, String.join_cons]
        simp [writeBranch]
        decide

/-- A positive offset is written with a blank before it and in decimal digits. -/
theorem toList_writeOffset {n : Nat} (hpos : 0 < (n : Int)) :
    (writeOffset (some (n : Int))).toList =
      [' '] ++ "offset".toList ++ [] ++ ':' :: ([] ++ Nat.toDigits 10 n) := by
  rw [writeOffset, if_pos hpos]
  show (" offset:" ++ Nat.repr n).toList = _
  rw [Nat.repr_eq_ofList_toDigits, String.toList_append,
    String.toList_ofList (l := Nat.toDigits 10 n)]
  rfl

/-- The offset of a plural is written after a comma and read before its variants. -/
theorem variants_writeOffset {offset : Option Int} {variants : List Branch}
    (hoffset : ∀ n ∈ offset, 0 < n ∧ n < (10 ^ Text.maxDigits : Nat))
    (hvariants : ∀ b ∈ variants, b.Printable .category) :
    Variants (',' :: ((writeOffset offset).toList ++
      (String.join (variants.map writeBranch)).toList)) offset variants := by
  have hlist := branch_list_of_printable hvariants
  cases offset with
  | none => exact .comma hlist
  | some n =>
      obtain ⟨hpos, hlt⟩ := hoffset n rfl
      obtain ⟨n, rfl⟩ := Int.eq_ofNat_of_zero_le (Int.le_of_lt hpos)
      have hinteger := integer_toDigits (Int.ofNat_lt.1 hlt)
      have hrule := Variants.offset .space .nil .nil (name_toDigits n variants) hinteger hlist
      rw [toList_writeOffset hpos]
      simpa only [List.append_assoc, List.cons_append, List.nil_append, List.append_nil] using hrule

/-- The written form of printable content is a placeholder that says the same. -/
theorem placeholder_of_printable {content : Content} (h : content.Printable) :
    Placeholder content.written.toList content := by
  cases h with
  | @simple name hname =>
      have hrule : Placeholder ('{' :: ([] ++ name ++ [] ++ ['}'])) _ := .simple .nil hname .nil
      simpa [Content.written, writeArgument, given?, toList_braced] using hrule
  | @typed name type hname htype hword =>
      have hkind : Kind (String.ofList name) _ _ := .typed .space htype hword .nil
      have hrule := Placeholder.kind .nil (hname.before_char (by decide) []) .nil hkind
      rw [Content.written, writeArgument, given?_ofList htype.ne_nil]
      simpa [given?, toList_braced] using hrule
  | @styled name type style hname htype hword hstyle hne hstrip =>
      -- A space is written in front of the style, and the reader strips it again.
      have hformat := Blank.space.plain.enclosed_append hstyle
      have hkind : Kind (String.ofList name) _ _ :=
        .styled .space (htype.before_char (by decide) []) hword .nil hformat
      have hrule := Placeholder.kind .nil (hname.before_char (by decide) []) .nil hkind
      rw [style?, strip_blank_append Blank.space, hstrip, if_neg hne] at hrule
      rw [Content.written, writeArgument, given?_ofList htype.ne_nil, given?_ofList hne]
      simpa [toList_braced] using hrule
  | @plural name variants offset hname hoffset hvariants =>
      have hword : Name "plural".toList [','] := name_of_construct_word (by simp [constructWords])
      have hkind : Kind (String.ofList name) _ _ :=
        .plural .space (hword.congr rfl) .nil (variants_writeOffset hoffset hvariants)
      have hrule := Placeholder.kind .nil (hname.before_char (by decide) []) .nil hkind
      rw [Content.written, writePlural, toList_writeConstruct]
      exact hrule
  | @ordinal name variants hname hvariants =>
      have hword : Name "selectordinal".toList [','] :=
        name_of_construct_word (by simp [constructWords])
      have hkind : Kind (String.ofList name) _ _ :=
        .ordinal .space (hword.congr rfl) .nil (.comma (branch_list_of_printable hvariants))
      have hrule := Placeholder.kind .nil (hname.before_char (by decide) []) .nil hkind
      rw [Content.written, writeOrdinal, toList_writeConstruct]
      exact hrule
  | @select name options hname hoptions =>
      have hword : Name "select".toList [','] := name_of_construct_word (by simp [constructWords])
      have hkind : Kind (String.ofList name) _ _ :=
        .select .space (hword.congr rfl) .nil (.comma (branch_list_of_printable hoptions))
      have hrule := Placeholder.kind .nil (hname.before_char (by decide) []) .nil hkind
      rw [Content.written, writeSelect, toList_writeConstruct]
      exact hrule

end MessageFormat
