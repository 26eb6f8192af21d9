import MessageFormat.Proofs.Completing
import MessageFormat.Proofs.Tiling

/-!
# Offsets

What becomes of the offset of a plural when a message is rebuilt. `CarriesOffset` says of a text
that it has an offset in the header of a plural, before its first branch. A cardinal plural keeps a
positive offset whatever is translated. An ordinal plural loses the offset that was read from its
header, even if nothing is translated. Categories are written as they are given, and so a construct
gets an offset that it did not have only if a translated category is spelled like one
(`rebuild_offsets`).
-/

namespace MessageFormat

open Grammar Place

variable {i : Nat} {s t : List Char} {n : Int}

/-! ### Headers with an offset -/

/-- The words of the constructs that choose by a number. -/
def pluralWords : List (List Char) :=
  ["plural".toList, "selectordinal".toList]

/-- The text starts with the word `offset`, a colon and a whole integer, perhaps with blanks around
the colon and before the word. -/
inductive SpellsOffset : List Char → Int → Prop where
  | intro {w₁ w₂ w₃ number rest n} :
      Blank w₁ → Blank w₂ → Blank w₃ → Name number rest → Integer number n →
      SpellsOffset (w₁ ++ ("offset".toList ++ w₂ ++ ':' :: (w₃ ++ number ++ rest))) n

/-- The text starts with a brace, the name of a variable, the word of a plural and an offset, with
commas between them. -/
inductive CarriesOffset : List Char → Int → Prop where
  | intro {w₁ name w₂ w₃ word w₄ s n} :
      Blank w₁ → Name name (w₂ ++ [',']) → Blank w₂ → Blank w₃ → Name word (w₄ ++ [',']) →
      Blank w₄ → word ∈ pluralWords → SpellsOffset s n →
      CarriesOffset ('{' :: (w₁ ++ name ++ w₂ ++ ',' :: (w₃ ++ word ++ w₄ ++ ',' :: s))) n

/-! ### Reading them -/

/-- The reader of offsets reads what is spelled. -/
theorem SpellsOffset.read (h : SpellsOffset s n) (i : Nat) :
    ∃ q, readOffset (before i s).skipBlanks = .ok (some n, q) := by
  obtain ⟨hw₁, hw₂, hw₃, hname, hnumber⟩ := h
  rw [skipBlanks_before hw₁ (offset_word_head _ _), readOffset_of_integer hw₂ hw₃ hname hnumber]
  exact ⟨_, rfl⟩

/-- A text spells one offset. -/
theorem SpellsOffset.unique {n' : Int} (h : SpellsOffset s n) (h' : SpellsOffset s n') :
    n = n' := by
  obtain ⟨q, hread⟩ := h.read 0
  obtain ⟨q', hread'⟩ := h'.read 0
  rw [hread] at hread'
  cases hread'
  rfl

/-- A plural with an offset in its header is read with that offset. -/
theorem SpellsOffset.readPlural (h : SpellsOffset s n)
    {make : Option Int → List Branch → Content} {content : Content} {q : Place}
    (hread : (readPlural make (before i (',' :: s))).result = .ok (content, q)) :
    ∃ variants, content = make (some n) variants := by
  obtain ⟨after, hoffset⟩ := h.read (i + 1)
  rw [MessageFormat.readPlural, isAt_before_cons, if_pos (by decide), advance_before_cons,
    hoffset] at hread
  exact ⟨_, (Reading.branches_of_result hread).2⟩

/-- A cardinal plural with an offset in its header has that offset. -/
theorem CarriesOffset.offset_eq (h : CarriesOffset s n) {name : String} {offset : Option Int}
    {variants : List Branch} (hrule : Placeholder s (.plural name offset variants)) :
    offset = some n := by
  have hread := readPlaceholder_of_rule (i := 0) (t := []) hrule
  obtain @⟨w₁, name', w₂, w₃, word, w₄, s, n, hw₁, hname, hw₂, hw₃, hword, hw₄, hmem, hoffset⟩ := h
  have hname : Name name' (w₂ ++ ',' :: (w₃ ++ (word ++ (w₄ ++ ',' :: s)))) :=
    hname.congr (head?_append_cons _ _ _)
  have hword : Name word (w₄ ++ ',' :: s) := hword.congr (head?_append_cons _ _ _)
  simp only [List.append_nil, List.append_assoc] at hread
  rw [readPlaceholder_before hw₁ hname hw₂ (by decide)] at hread
  dsimp only at hread
  rw [if_neg (by decide), if_pos rfl, advance_before_cons,
    readKind_before name' hw₃ hword hw₄ (forall_head?_cons rfl)] at hread
  simp only [pluralWords, List.mem_cons, List.not_mem_nil, or_false] at hmem
  rcases hmem with rfl | rfl
  · obtain ⟨variants', heq⟩ := hoffset.readPlural hread
    cases heq
    rfl
  · obtain ⟨variants', heq⟩ := hoffset.readPlural hread
    cases heq

/-- A cardinal plural that is read with an offset has it in its header. -/
theorem Grammar.Placeholder.carries_offset {name : String} {variants : List Branch}
    (h : Placeholder s (.plural name (some n) variants)) : CarriesOffset s n := by
  cases h with
  | @kind w₁ name w₂ s _ hw₁ hname hw₂ hkind =>
  cases hkind with
  | @plural w₃ w₄ s _ _ hw₃ hword hw₄ hvariants =>
  cases hvariants with
  | @offset w₅ w₆ w₇ number _ s _ hw₅ hw₆ hw₇ hnumber hinteger _ =>
      have hoffset := SpellsOffset.intro hw₅ hw₆ hw₇
        (hnumber.before_close (t := []) rfl) hinteger
      have hcarries := CarriesOffset.intro hw₁ hname hw₂ hw₃
        (hword.congr (head?_append_cons _ _ _).symm) hw₄ (by simp [pluralWords]) hoffset
      simpa only [List.append_assoc, List.cons_append, List.nil_append] using hcarries

/-! ### Written headers -/

/-- A comma is no part of a name or of the blanks around it. -/
theorem comma_not_mem {w₁ word w₂ : List Char} (hw₁ : Blank w₁)
    (hword : ∀ c ∈ word, isNameChar c = true) (hw₂ : Blank w₂) : ',' ∉ w₁ ++ word ++ w₂ := by
  have hblank : ∀ w, Blank w → ',' ∉ w := fun w hw hmem => absurd (hw _ hmem) (by decide)
  simp only [List.mem_append, not_or]
  exact ⟨⟨hblank w₁ hw₁, fun hmem => absurd (hword _ hmem) (by decide)⟩, hblank w₂ hw₂⟩

/-- The blanks around a name can be told from it. -/
theorem filter_isNameChar {w₁ word w₂ : List Char} (hw₁ : Blank w₁)
    (hword : ∀ c ∈ word, isNameChar c = true) (hw₂ : Blank w₂) :
    (w₁ ++ word ++ w₂).filter isNameChar = word := by
  have hblank : ∀ w, Blank w → w.filter isNameChar = [] := by
    intro w hw
    refine List.filter_eq_nil_iff.2 fun c hc hname => ?_
    have hnot := isBlank_of_name_char hname
    rw [hw c hc] at hnot
    cases hnot
  rw [List.filter_append, List.filter_append, hblank w₁ hw₁, hblank w₂ hw₂,
    List.filter_eq_self.2 hword, List.nil_append, List.append_nil]

/-- After a name and a word with commas behind them, a text has an offset exactly if the word is
that of a plural and an offset comes next. -/
theorem carriesOffset_iff {w₁ name w₂ w₃ word w₄ : List Char} (hw₁ : Blank w₁)
    (hname : Name name (w₂ ++ [','])) (hw₂ : Blank w₂) (hw₃ : Blank w₃)
    (hword : Name word (w₄ ++ [','])) (hw₄ : Blank w₄) :
    CarriesOffset ('{' :: (w₁ ++ name ++ w₂ ++ ',' :: (w₃ ++ word ++ w₄ ++ ',' :: s))) n ↔
      word ∈ pluralWords ∧ SpellsOffset s n := by
  constructor
  · intro h
    generalize htext : '{' :: (w₁ ++ name ++ w₂ ++ ',' :: (w₃ ++ word ++ w₄ ++ ',' :: s)) = u at h
    obtain ⟨hw₁', hname', hw₂', hw₃', hword', hw₄', hmem, hoffset⟩ := h
    -- The two commas are the first ones on both sides, so the words between them are the same.
    obtain ⟨-, hrest⟩ := append_cons_inj (comma_not_mem hw₁ hname.chars hw₂)
      (comma_not_mem hw₁' hname'.chars hw₂') (List.cons.inj htext).2
    obtain ⟨hwords, rfl⟩ := append_cons_inj (comma_not_mem hw₃ hword.chars hw₄)
      (comma_not_mem hw₃' hword'.chars hw₄') hrest
    have hsame := congrArg (List.filter isNameChar) hwords
    rw [filter_isNameChar hw₃ hword.chars hw₄, filter_isNameChar hw₃' hword'.chars hw₄'] at hsame
    rw [hsame]
    exact ⟨hmem, hoffset⟩
  · rintro ⟨hmem, hoffset⟩
    exact .intro hw₁ hname hw₂ hw₃ hword hw₄ hmem hoffset

/-- A text has one offset in its header. -/
theorem CarriesOffset.unique {n' : Int} (h : CarriesOffset s n) (h' : CarriesOffset s n') :
    n = n' := by
  obtain ⟨hw₁, hname, hw₂, hw₃, hword, hw₄, -, hoffset⟩ := h
  exact hoffset.unique ((carriesOffset_iff hw₁ hname hw₂ hw₃ hword hw₄).1 h').2

/-- A written construct has an offset in its header exactly if its word is that of a plural and what
is written after the word starts with one. -/
theorem carriesOffset_writeConstruct_iff {name : List Char} (hname : Name name [])
    {keyword : String} (hkeyword : keyword.toList ∈ constructWords) (head : String)
    (branches : List Branch) :
    CarriesOffset (writeConstruct (String.ofList name) keyword head branches).toList n ↔
      keyword.toList ∈ pluralWords ∧
        SpellsOffset (head.toList ++
          ((String.join (branches.map writeBranch)).toList ++ ['}'])) n := by
  have htext : (writeConstruct (String.ofList name) keyword head branches).toList =
      '{' :: ([] ++ name ++ [] ++ ',' :: ([' '] ++ keyword.toList ++ [] ++ ',' ::
        (head.toList ++ ((String.join (branches.map writeBranch)).toList ++ ['}'])))) := by
    rw [toList_writeConstruct]
    simp only [List.append_assoc, List.cons_append]
  rw [htext]
  exact carriesOffset_iff .nil (hname.before_char (by decide) []) .nil .space
    (name_of_construct_word hkeyword) .nil

/-- A positive offset that is written in the header of a plural is there. -/
theorem carriesOffset_writeOffset {name : List Char} (hname : Name name []) {keyword : String}
    (hkeyword : keyword.toList ∈ pluralWords) (hpos : 0 < n)
    (hlt : n < (10 ^ Text.maxDigits : Nat)) (branches : List Branch) :
    CarriesOffset
      (writeConstruct (String.ofList name) keyword (writeOffset (some n)) branches).toList n := by
  have hconstruct : keyword.toList ∈ constructWords := by
    simp only [pluralWords, constructWords, List.mem_cons, List.not_mem_nil, or_false]
      at hkeyword ⊢
    exact hkeyword.imp_right .inl
  refine (carriesOffset_writeConstruct_iff hname hconstruct _ branches).2 ⟨hkeyword, ?_⟩
  obtain ⟨k, rfl⟩ := Int.eq_ofNat_of_zero_le (Int.le_of_lt hpos)
  have hnumber := (name_toDigits k branches).before_close (t := []) rfl
  have hinteger := integer_toDigits (Int.ofNat_lt.1 hlt)
  have hoffset := SpellsOffset.intro .space .nil .nil hnumber hinteger
  rw [toList_writeOffset hpos]
  simpa only [List.append_assoc, List.cons_append, List.nil_append, List.append_nil] using hoffset

/-! ### Categories that spell an offset -/

/-- There is a colon in an offset. -/
theorem SpellsOffset.colon_mem (h : SpellsOffset s n) : ':' ∈ s := by
  obtain ⟨⟩ := h
  simp

/-- There is a colon in a header with an offset. -/
theorem CarriesOffset.colon_mem (h : CarriesOffset s n) : ':' ∈ s := by
  obtain ⟨-, -, -, -, -, -, -, hoffset⟩ := h
  simp [hoffset.colon_mem]

/-- A blank before an offset does not matter. -/
theorem SpellsOffset.of_space (h : SpellsOffset (' ' :: s) n) : SpellsOffset s n := by
  generalize htext : ' ' :: s = u at h
  obtain @⟨w₁, w₂, w₃, number, rest, n, hw₁, hw₂, hw₃, hname, hnumber⟩ := h
  cases w₁ with
  | nil => exact absurd (List.cons.inj htext).1 (by decide)
  | cons c w₁ =>
      obtain ⟨-, rfl⟩ := List.cons.inj htext
      exact .intro (fun c hc => hw₁ c (List.mem_cons_of_mem _ hc)) hw₂ hw₃ hname hnumber

/-- An offset ends with its number, before the body of a branch and the blank in front of it. -/
theorem SpellsOffset.of_body (h : SpellsOffset (s ++ ' ' :: '{' :: t) n) : SpellsOffset s n := by
  generalize htext : s ++ ' ' :: '{' :: t = u at h
  obtain @⟨w₁, w₂, w₃, number, rest, n, hw₁, hw₂, hw₃, hname, hnumber⟩ := h
  have hcut : s ++ ' ' :: '{' :: t =
      (w₁ ++ "offset".toList ++ w₂ ++ [':'] ++ w₃ ++ number) ++ rest := by
    rw [htext]
    simp only [List.append_assoc, List.cons_append, List.nil_append]
  have hspells : ∀ {v}, Name number v →
      SpellsOffset ((w₁ ++ "offset".toList ++ w₂ ++ [':'] ++ w₃ ++ number) ++ v) n := by
    intro v hv
    have hoffset := SpellsOffset.intro hw₁ hw₂ hw₃ hv hnumber
    simpa only [List.append_assoc, List.cons_append, List.nil_append] using hoffset
  rcases List.append_eq_append_iff.1 hcut with ⟨u, hspelled, hu⟩ | ⟨u, rfl, hu⟩
  · cases u with
    | nil =>
        rw [List.append_nil] at hspelled
        rw [← hspelled, ← List.append_nil (_ ++ number)]
        exact hspells hname.at_end
    | cons c u =>
        obtain ⟨rfl, hrest⟩ := List.cons.inj hu
        cases u with
        | nil =>
            -- The last character of the offset is one of its number.
            have hlast := congrArg List.getLast? hspelled
            rw [List.getLast?_append_of_ne_nil _ hname.ne_nil, List.getLast?_concat] at hlast
            exact absurd (hname.chars _ (List.mem_of_getLast? hlast)) (by decide)
        | cons d u =>
            obtain ⟨rfl, -⟩ := List.cons.inj hrest
            have hplain := ((((hw₁.plain.append (plain_of_class offset_word_chars)).append
              hw₂.plain).append (plain_singleton (c := ':') (by decide))).append hw₃.plain).append
              hname.plain
            exact absurd rfl (hplain '{' (by rw [hspelled]; simp)).1
  · exact hspells (hu ▸ hname).of_append

/-- What the first of written branches spells is spelled by its key. -/
theorem SpellsOffset.of_branches {branches : List Branch}
    (h : SpellsOffset ((String.join (branches.map writeBranch)).toList ++ ['}']) n) :
    ∃ b ∈ branches, SpellsOffset b.key.toList n := by
  cases branches with
  | nil => exact absurd h.colon_mem (by decide)
  | cons b branches =>
      have htext : (String.join ((b :: branches).map writeBranch)).toList ++ ['}'] =
          ' ' :: (b.key.toList ++ ' ' :: '{' :: (b.text.toList ++ '}' ::
            ((String.join (branches.map writeBranch)).toList ++ ['}']))) := by
        simp [String.join_cons, writeBranch, toList_braced]
      rw [htext] at h
      exact ⟨b, List.mem_cons_self, h.of_space.of_body⟩

/-- A category that can be written spells no offset. -/
theorem Branch.Printable.not_spells {selector : Selector} {b : Branch}
    (h : b.Printable selector) : ¬ SpellsOffset b.key.toList n := by
  have hcolon : ∀ {key rest}, Name key rest → ':' ∉ key :=
    fun hname hmem => absurd (hname.chars _ hmem) (by decide)
  intro hoffset
  have hkey := h.key
  generalize b.key.toList = key at hkey hoffset
  cases hkey with
  | name hname => exact hcolon hname hoffset.colon_mem
  | exact hname =>
      rcases List.mem_cons.1 hoffset.colon_mem with heq | hmem
      · exact absurd heq (by decide)
      · exact hcolon hname hmem

/-- A category that is added spells no offset. -/
theorem Branch.IsAdded.not_spells {variants : List Branch} {b : Branch}
    (h : b.IsAdded variants) : ¬ SpellsOffset b.key.toList n := by
  obtain ⟨c, hkey⟩ := h.key
  intro hoffset
  have hcolon := hoffset.colon_mem
  rw [hkey] at hcolon
  cases c <;> exact absurd hcolon (by decide)

/-- Among merged and completed variants, an offset is spelled by a translated category only. -/
theorem SpellsOffset.of_merged {o : Options} {kind : Plural.Kind} {keep : Bool}
    {source translated : List Branch} (hsource : ∀ b ∈ source, b.Printable .category)
    (h : SpellsOffset ((String.join ((o.complete kind
      (mergeVariants keep source translated)).map writeBranch)).toList ++ ['}']) n) :
    ∃ b ∈ translated, SpellsOffset b.key.toList n := by
  obtain ⟨b, hb, hoffset⟩ := h.of_branches
  rcases Options.mem_complete hb with hb | hadded
  · rcases mem_mergeVariants hb with hb | hb
    · exact absurd hoffset (hsource b hb).not_spells
    · exact ⟨b, hb, hoffset⟩
  · exact absurd hoffset hadded.not_spells

/-! ### Offsets of rebuilt messages -/

variable {name : String} {source branches : List Branch}

/-- A cardinal plural is written with the positive offset in its header. -/
theorem Grammar.Placeholder.keeps_offset {offset : Option Int}
    (h : Placeholder s (.plural name offset source)) (hpos : 0 < n) (hcarries : CarriesOffset s n) :
    CarriesOffset (writePlural name offset branches).toList n := by
  obtain rfl := hcarries.offset_eq h
  have hprintable := (printable_iff_of_placeholder h).2 trivial
  rw [Content.canonical, Option.filter_some, if_pos (decide_eq_true hpos)] at hprintable
  cases hprintable with
  | plural hname hoffset _ =>
      exact carriesOffset_writeOffset hname (by simp [pluralWords]) hpos (hoffset n rfl).2 branches

/-- A cardinal plural is written with no other offset, unless its variants start with one. -/
theorem Grammar.Placeholder.offset_of_written {offset : Option Int}
    (h : Placeholder s (.plural name offset source))
    (hcarries : CarriesOffset (writePlural name offset branches).toList n) :
    (0 < n ∧ CarriesOffset s n) ∨
      SpellsOffset ((String.join (branches.map writeBranch)).toList ++ ['}']) n := by
  by_cases hoffset : ∃ k, offset = some k ∧ 0 < k
  · obtain ⟨k, rfl, hpos⟩ := hoffset
    have hk := h.carries_offset
    rw [← (h.keeps_offset hpos hk).unique hcarries]
    exact .inl ⟨hpos, hk⟩
  · have hhead : writeOffset offset = "" := by
      cases offset with
      | none => rfl
      | some k => exact if_neg fun hpos => hoffset ⟨k, rfl, hpos⟩
    have hprintable := (printable_iff_of_placeholder h).2 trivial
    rw [Content.canonical] at hprintable
    cases hprintable with
    | plural hname _ _ =>
        rw [writePlural, hhead,
          carriesOffset_writeConstruct_iff hname (by simp [constructWords])] at hcarries
        exact .inr hcarries.2

/-- In a rebuilt message each cardinal plural has the positive offset that it had, and no construct
has any other offset, unless a translated category spells it. -/
theorem rebuild_offsets {text : String} {m : Message} (hparse : parse text = .ok m)
    (t : Replacements) (o : Options) {i : Nat} {e : Element} (he : m.elements[i]? = some e)
    (hconstruct : e.content.isPlural = true ∨ e.content.isSelect = true) {name : String}
    (hname : e.content.name? = some name) :
    let written := (m.slice e.start e.stop).toList
    ∃ piece, (rebuiltPieces m.toPattern t o)[i]? = some piece ∧
      (e.content.isCardinal = true →
        ∀ n, 0 < n → CarriesOffset written n → CarriesOffset piece.toList n) ∧
      ∀ n, CarriesOffset piece.toList n →
        (e.content.isCardinal = true ∧ 0 < n ∧ CarriesOffset written n) ∨
          ∃ b ∈ t.variantsFor i name, SpellsOffset b.key.toList n := by
  intro written
  have hplace : e.content.isPlaceholder = true := by
    cases hcontent : e.content with
    | text value =>
        rw [hcontent] at hname
        cases hname
    | _ => rfl
  have hrule : Placeholder written e.content :=
    placeholder_slice hparse (List.mem_of_getElem? he) hplace
  have hprintable := (printable_iff_of_placeholder hrule).2
  refine ⟨_, getElem?_rebuiltPieces he t o, ?_⟩
  generalize written = s at hrule
  obtain ⟨content, start, stop⟩ := e
  cases content with
  | text value => rcases hconstruct with h | h <;> cases h
  | argument => rcases hconstruct with h | h <;> cases h
  | plural name offset source =>
      cases hname
      refine ⟨fun _ n hpos hcarries => hrule.keeps_offset hpos hcarries, fun n hcarries => ?_⟩
      rcases hrule.offset_of_written hcarries with hkept | hspelled
      · exact .inl ⟨rfl, hkept⟩
      · cases hprintable trivial with
        | plural _ _ hsource => exact .inr (hspelled.of_merged hsource)
  | ordinal name source =>
      cases hname
      refine ⟨fun h => absurd h Bool.false_ne_true, fun n hcarries => ?_⟩
      cases hprintable trivial with
      | ordinal hname hsource =>
          have hspelled :=
            ((carriesOffset_writeConstruct_iff hname (by simp [constructWords]) _ _).1 hcarries).2
          exact .inr (hspelled.of_merged hsource)
  | select name options =>
      cases hname
      refine ⟨fun h => absurd h Bool.false_ne_true, fun n hcarries => ?_⟩
      cases hprintable trivial with
      | select hname _ =>
          have hword :=
            ((carriesOffset_writeConstruct_iff hname (by simp [constructWords]) _ _).1 hcarries).1
          exact absurd hword (by decide)

/-- A plural with an offset, whose translation has a single category that is called `offset`. -/
theorem rebuild_offsets_russian :
    let text := "\x7bn, plural, offset:02 one \x7ba\x7d other \x7bb\x7d\x7d"
    let e : Element := ⟨.plural "n" (some 2) [⟨"one", "a"⟩, ⟨"other", "b"⟩], 0, 40⟩
    let m : Message := ⟨⟨text, [e]⟩, ["n"], true, false⟩
    let t : Replacements := { plurals := [("n", [⟨"offset", "x"⟩])] }
    let o : Options := { language := "ru", completePlurals := true }
    parse text = .ok m ∧ m.elements[0]? = some e ∧
      (e.content.isPlural = true ∨ e.content.isSelect = true) ∧ e.content.name? = some "n" ∧
      ∃ piece, (rebuiltPieces m.toPattern t o)[0]? = some piece ∧
        ∀ n, CarriesOffset piece.toList n ↔ n = 2 := by
  intro text e m t o
  have hparse : parse text = .ok m := by decide +kernel
  have he : m.elements[0]? = some e := rfl
  have hrule : Placeholder (m.slice e.start e.stop).toList e.content :=
    placeholder_slice hparse List.mem_cons_self rfl
  obtain ⟨piece, hpiece, hkept, -⟩ := rebuild_offsets hparse t o he (.inl rfl) rfl
  have hcarries := hkept rfl 2 (by decide) hrule.carries_offset
  refine ⟨hparse, he, .inl rfl, rfl, piece, hpiece, fun n => ⟨fun h => h.unique hcarries, ?_⟩⟩
  rintro rfl
  exact hcarries

/-- An ordinal plural loses the offset in its header, and a plural gets one from a category that is
spelled like it. -/
theorem rebuild_loses_and_gains_offset :
    let ordinal : Pattern := ⟨"\x7bn, selectordinal, offset:1 other \x7ba\x7d\x7d",
      [⟨.ordinal "n" [⟨"other", "a"⟩], 0, 38⟩]⟩
    let plural : Pattern := ⟨"\x7bn, plural, other \x7ba\x7d\x7d",
      [⟨.plural "n" none [⟨"other", "a"⟩], 0, 22⟩]⟩
    let t : Replacements := { plurals := [("n", [⟨"offset:1 other", "x"⟩])] }
    (parse ordinal.source = .ok ⟨ordinal, ["n"], true, false⟩ ∧
      CarriesOffset (ordinal.slice 0 38).toList 1 ∧
      (rebuiltPieces ordinal .empty {})[0]? = some "\x7bn, selectordinal, other \x7ba\x7d\x7d" ∧
      ¬ CarriesOffset "\x7bn, selectordinal, other \x7ba\x7d\x7d".toList 1) ∧
    parse plural.source = .ok ⟨plural, ["n"], true, false⟩ ∧
      ¬ CarriesOffset (plural.slice 0 22).toList 1 ∧
      (rebuiltPieces plural t {})[0]? = some "\x7bn, plural, offset:1 other \x7bx\x7d\x7d" ∧
      CarriesOffset "\x7bn, plural, offset:1 other \x7bx\x7d\x7d".toList 1 := by
  intro ordinal plural t
  have hname : Name ['n'] [] := ⟨List.cons_ne_nil _ _, List.all_eq_true.1 rfl, nofun⟩
  have hnumber : Integer ['1'] 1 :=
    integer_toDigits (n := 1) (Nat.one_lt_pow (by decide) (by decide))
  have hcarries : ∀ keyword : String, keyword.toList ∈ pluralWords → ∀ text,
      CarriesOffset (writeConstruct (String.ofList ['n']) keyword (writeOffset (some 1))
        [⟨"other", text⟩]).toList 1 :=
    fun keyword hkeyword text =>
      carriesOffset_writeOffset hname hkeyword (by decide) hnumber.lt_pow [⟨"other", text⟩]
  have hordinal : ordinal.slice 0 38 =
      writeConstruct (String.ofList ['n']) "selectordinal" (writeOffset (some 1))
        [⟨"other", "a"⟩] := by
    decide +kernel
  have hplural : "\x7bn, plural, offset:1 other \x7bx\x7d\x7d" =
      writeConstruct (String.ofList ['n']) "plural" (writeOffset (some 1)) [⟨"other", "x"⟩] := by
    decide +kernel
  refine ⟨⟨by decide +kernel, ?_, by decide +kernel, fun h => ?_⟩, by decide +kernel,
    fun h => ?_, by decide +kernel, ?_⟩
  · rw [hordinal]
    exact hcarries "selectordinal" (by decide) "a"
  · exact absurd h.colon_mem (by decide)
  · exact absurd h.colon_mem (by decide +kernel)
  · rw [hplural]
    exact hcarries "plural" (by decide) "x"

end MessageFormat
