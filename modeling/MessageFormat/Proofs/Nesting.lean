import Mathlib.Data.List.Induction
import MessageFormat.Proofs.Derivations

/-!
# Nested messages

What a message reports about all of its depths, said with its own elements and with what its
branches report as messages of their own (`parse_nested`). Names are collected through all depths
and cleared of repetitions once; clearing those of each branch before makes no difference, because
a name that is repeated has been seen by then.
-/

namespace MessageFormat

open Grammar

/-! ### Names -/

/-- The names seen so far, and those of the others that are new. -/
def withNew (seen names : List String) : List String :=
  names.foldl (fun seen name => if name ∈ seen then seen else seen ++ [name]) seen

/-- One more name is added unless it has been seen. -/
theorem withNew_append_singleton (seen names : List String) (name : String) :
    withNew seen (names ++ [name]) =
      if name ∈ withNew seen names then withNew seen names else withNew seen names ++ [name] := by
  rw [withNew, List.foldl_append]
  rfl

/-- The names seen in the end are those seen before and the others. -/
theorem mem_withNew {seen names : List String} {name : String} :
    name ∈ withNew seen names ↔ name ∈ seen ∨ name ∈ names := by
  induction names using List.reverseRecOn with
  | nil => simp [withNew]
  | append_singleton names last ih =>
      rw [withNew_append_singleton, List.mem_append, List.mem_singleton, ← or_assoc, ← ih]
      split
      · next hlast =>
        refine ⟨.inl, ?_⟩
        rintro (h | rfl)
        · exact h
        · exact hlast
      · rw [List.mem_append, List.mem_singleton]

/-- One more name is kept unless it occurred before. -/
theorem distinct_append_singleton (names : List String) (name : String) :
    distinct (names ++ [name]) =
      if name ∈ distinct names then distinct names else distinct names ++ [name] :=
  withNew_append_singleton [] names name

/-- Names that are distinct among themselves are added as the whole list would be. -/
theorem withNew_distinct (seen names : List String) :
    withNew seen (distinct names) = withNew seen names := by
  induction names using List.reverseRecOn with
  | nil => rfl
  | append_singleton names last ih =>
      rw [distinct_append_singleton, withNew_append_singleton, ← ih]
      split
      · next hlast =>
        -- A name that is repeated in the list has been seen when it comes again.
        have hseen : last ∈ withNew seen (distinct names) := mem_withNew.2 (.inr hlast)
        rw [if_pos hseen]
      · exact withNew_append_singleton seen (distinct names) last

/-- Lists that are added alike one by one are added alike one after the other. -/
theorem withNew_flatMap_congr {α : Type} {l : List α} {f g : α → List String}
    (h : ∀ x ∈ l, ∀ seen, withNew seen (f x) = withNew seen (g x)) (seen : List String) :
    withNew seen (l.flatMap f) = withNew seen (l.flatMap g) := by
  induction l generalizing seen with
  | nil => rfl
  | cons x l ih =>
      have happend : ∀ names names', withNew seen (names ++ names') =
          withNew (withNew seen names) names' :=
        fun names names' => List.foldl_append
      rw [List.flatMap_cons, List.flatMap_cons, happend, happend, h x List.mem_cons_self]
      exact ih (fun y hy => h y (List.mem_cons_of_mem x hy)) _

/-- Of equal names the first is kept. -/
theorem distinct_eq_eraseDups (names : List String) : distinct names = names.eraseDups := by
  induction names using List.reverseRecOn with
  | nil => rfl
  | append_singleton names last ih =>
      rw [distinct_append_singleton, ih, List.eraseDups_append]
      by_cases hlast : last ∈ names <;>
        simp [List.mem_eraseDups, List.removeAll, List.eraseDups_cons, hlast]

/-! ### Branches -/

/-- The message that a text is, if it is one. -/
def messageOf (text : String) : Message :=
  described text ((Outline.ofChars text.toList).pieces.map (·.element))
    ((elementsIn text).map (·.content))

/-- A text that is a message is parsed into it. -/
theorem parse_eq_messageOf {text : String} (h : isMessage text = true) :
    parse text = .ok (messageOf text) :=
  parse_eq_ok_iff_walk.2 ⟨_, isMessage_iff.1 h, rfl⟩

/-- What a message reports is what its elements say and what the messages inside them report. -/
structure Message.Unites (m : Message) (inside : String → Message) : Prop where
  /-- The names of the elements, each followed by those of its branches, without repetitions. -/
  names : m.names = (m.elements.flatMap fun e =>
    e.content.name?.toList ++ e.content.branches.flatMap fun b => (inside b.text).names).eraseDups
  /-- There is a plural among the elements or in a branch. -/
  plurals : m.hasPlurals = true ↔ ∃ e ∈ m.elements, e.content.isPlural = true ∨
    ∃ b ∈ e.content.branches, (inside b.text).hasPlurals = true
  /-- There is a select among the elements or in a branch. -/
  select : m.hasSelect = true ↔ ∃ e ∈ m.elements, e.content.isSelect = true ∨
    ∃ b ∈ e.content.branches, (inside b.text).hasSelect = true
  /-- There is a construct among the elements. -/
  complex : m.isComplex = true ↔
    ∃ e ∈ m.elements, e.content.isPlural = true ∨ e.content.isSelect = true

/-- The names of a content and of its branches at every depth. -/
theorem Content.names_withBranches (c : Content) (seen : List String) :
    withNew seen (c.withBranches.filterMap (·.name?)) =
      withNew seen (c.name?.toList ++ c.branches.flatMap fun b => (messageOf b.text).names) := by
  have hbranches : (c.branches.flatMap fun b => (elementsIn b.text).map (·.content)).filterMap
      (·.name?) =
        c.branches.flatMap fun b => ((elementsIn b.text).map (·.content)).filterMap (·.name?) :=
    List.filterMap_flatMap
  have hcons : c.withBranches.filterMap (·.name?) = c.name?.toList ++
      c.branches.flatMap fun b => ((elementsIn b.text).map (·.content)).filterMap (·.name?) := by
    rw [withBranches, ← hbranches]
    cases h : c.name? <;> simp [h]
  rw [hcons, withNew, withNew, List.foldl_append, List.foldl_append]
  exact withNew_flatMap_congr (fun b _ seen => (withNew_distinct seen _).symm) _

/-- A content or a branch of it at some depth has a property exactly if the content or a message
inside it has. -/
theorem Content.any_withBranches (c : Content) (p : Content → Bool) :
    c.withBranches.any p = true ↔
      p c = true ∨ ∃ b ∈ c.branches, ((elementsIn b.text).map (·.content)).any p = true := by
  simp only [withBranches, List.any_cons, List.any_flatMap, Bool.or_eq_true, List.any_eq_true]

/-- Only constructs have branches. -/
theorem Content.construct_of_branch {c : Content} {b : Branch} (h : b ∈ c.branches) :
    c.isPlural = true ∨ c.isSelect = true := by
  cases c with
  | text value => cases h
  | argument name type style => cases h
  | plural name offset variants => exact .inl rfl
  | ordinal name variants => exact .inl rfl
  | select name options => exact .inr rfl

/-- A message that is described by its elements and the branches of all depths unites them. -/
theorem described_unites (text : String) (elements : List Element) :
    (described text elements ((elements.map (·.content)).flatMap (·.withBranches))).Unites
      messageOf := by
  have hany : ∀ p : Content → Bool,
      ((elements.map (·.content)).flatMap (·.withBranches)).any p = true ↔
        ∃ e ∈ elements, p e.content = true ∨
          ∃ b ∈ e.content.branches, ((elementsIn b.text).map (·.content)).any p = true := by
    intro p
    rw [List.any_flatMap, List.any_map, List.any_eq_true]
    simp only [Function.comp_apply, Content.any_withBranches]
  refine ⟨?_, hany _, hany _, ?_⟩
  · show distinct (((elements.map (·.content)).flatMap (·.withBranches)).filterMap (·.name?)) = _
    rw [List.flatMap_map, List.filterMap_flatMap, ← distinct_eq_eraseDups]
    exact withNew_flatMap_congr (fun e _ => e.content.names_withBranches) []
  · rw [Message.isComplex, Bool.or_eq_true]
    show List.any _ _ = true ∨ List.any _ _ = true ↔ _
    rw [hany, hany]
    constructor
    · rintro (⟨e, he, h | ⟨b, hb, -⟩⟩ | ⟨e, he, h | ⟨b, hb, -⟩⟩)
      · exact ⟨e, he, .inl h⟩
      · exact ⟨e, he, Content.construct_of_branch hb⟩
      · exact ⟨e, he, .inr h⟩
      · exact ⟨e, he, Content.construct_of_branch hb⟩
    · rintro ⟨e, he, h | h⟩
      · exact .inl ⟨e, he, .inl h⟩
      · exact .inr ⟨e, he, .inl h⟩

/-- A message unites its elements and its branches. -/
theorem unites_of_parse {text : String} {m : Message} (h : parse text = .ok m) :
    m.Unites messageOf := by
  obtain ⟨-, hm⟩ := (parse_eq_ok_iff_of_elements (elements_of_parse h)).1 h
  rw [hm]
  exact described_unites text m.elements

/-- The branches of a message are messages, and what the message reports is what its elements say
together with what its branches report. -/
theorem parse_nested {text : String} {m : Message} (h : parse text = .ok m) :
    ∃ inside : String → Message,
      (∀ e ∈ m.elements, ∀ b ∈ e.content.branches, parse b.text = .ok (inside b.text)) ∧
        m.Unites inside := by
  obtain ⟨hbranches, hm⟩ := (parse_eq_ok_iff_of_elements (elements_of_parse h)).1 h
  refine ⟨messageOf, fun e he b hb => parse_eq_messageOf (hbranches e he b hb), ?_⟩
  rw [hm]
  exact described_unites text m.elements

/-- A select with a plural inside that names the variable of the select again. -/
theorem parse_nested_select :
    let plural : Branch := ⟨"a", "\x7bn, plural, other \x7b\x7bg\x7d\x7d\x7d"⟩
    let text := "\x7bg, select, a \x7b" ++ plural.text ++ "\x7d other \x7b\x7bn\x7d\x7d\x7d"
    let m : Message :=
      ⟨⟨text, [⟨.select "g" [plural, ⟨"other", "\x7bn\x7d"⟩], 0, 53⟩]⟩, ["g", "n"], true, true⟩
    parse text = .ok m ∧
      ∃ inside : String → Message,
        (∀ e ∈ m.elements, ∀ b ∈ e.content.branches, parse b.text = .ok (inside b.text)) ∧
          m.Unites inside := by
  intro plural text m
  have hm : parse text = .ok m := by decide +kernel
  exact ⟨hm, parse_nested hm⟩

end MessageFormat
