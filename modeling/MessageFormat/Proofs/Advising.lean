import MessageFormat.Advice.Instructions
import MessageFormat.Proofs.Nesting

/-!
# What instructions cover

Which constructs of a message the instructions for translators speak of (`instructions_cover`).
Plurals are spoken of wherever they are, because there is an instruction of its own for those that
stand in branches only. Selects have no such instruction, and so one that stands in a branch is
passed over unless there is another one outside (`instructions_inner_select`).
-/

namespace MessageFormat

variable {language : String} {m : Message}

/-! ### Kinds of instructions -/

/-- The instructions that speak of plurals, cardinal or ordinal. -/
def aboutPlurals (language : String) : List String :=
  [pluralInstruction language, ordinalInstruction language, nestedInstruction language]

/-- An instruction about plurals can be told by the first letter of what it is about. -/
theorem exists_opening {part : String} (h : part ∈ aboutPlurals language) :
    ∃ opening ∈ ["This contains p", "This contains o", "This contains n"],
      opening.toList <+: part.toList := by
  rw [aboutPlurals, List.mem_cons, List.mem_cons, List.mem_singleton] at h
  rcases h with rfl | rfl | rfl
  · refine ⟨"This contains p", by decide, ?_⟩
    unfold pluralInstruction
    simp only [String.toList_append, List.append_assoc]
    exact List.IsPrefix.trans (by decide) (List.prefix_append _ _)
  · refine ⟨"This contains o", by decide, ?_⟩
    unfold ordinalInstruction
    simp only [String.toList_append, List.append_assoc]
    exact List.IsPrefix.trans (by decide) (List.prefix_append _ _)
  · refine ⟨"This contains n", by decide, ?_⟩
    unfold nestedInstruction
    simp only [String.toList_append, List.append_assoc]
    exact List.IsPrefix.trans (by decide) (List.prefix_append _ _)

/-- The instruction about selects is none about plurals, whatever the language. -/
theorem selectInstruction_not_mem (language : String) :
    selectInstruction ∉ aboutPlurals language := by
  intro h
  obtain ⟨opening, hopening, hprefix⟩ := exists_opening h
  revert opening
  decide

/-- No instruction is empty. -/
theorem ne_empty_of_mem {part : String}
    (h : part ∈ aboutPlurals language ∨ part = selectInstruction) : part ≠ "" := by
  rcases h with h | rfl
  · rintro rfl
    obtain ⟨opening, hopening, hprefix⟩ := exists_opening h
    revert opening
    decide
  · decide

/-! ### Instructions for a message -/

/-- When each of the instructions is given. -/
theorem mem_instructions {part : String} :
    part ∈ m.instructions language ↔
      ((∃ e ∈ m.elements, e.content.isCardinal = true) ∧ part = pluralInstruction language) ∨
      ((∃ e ∈ m.elements, e.content.isOrdinal = true) ∧ part = ordinalInstruction language) ∨
      ((∃ e ∈ m.elements, e.content.isSelect = true) ∧ part = selectInstruction) ∨
      ((m.hasPlurals = true ∧ ¬∃ e ∈ m.elements, e.content.isPlural = true) ∧
        part = nestedInstruction language) := by
  simp only [Message.instructions, List.mem_append, List.mem_ite_nil_right, List.mem_singleton,
    List.any_eq_true, Bool.and_eq_true, Bool.not_eq_true', ← Bool.not_eq_true, or_assoc]

/-- Every instruction is about plurals or about selects. -/
theorem about_of_mem_instructions {part : String} (h : part ∈ m.instructions language) :
    part ∈ aboutPlurals language ∨ part = selectInstruction := by
  rcases mem_instructions.1 h with ⟨-, rfl⟩ | ⟨-, rfl⟩ | ⟨-, rfl⟩ | ⟨-, rfl⟩ <;>
    simp [aboutPlurals]

/-- Selects are spoken of exactly if there is one among the elements. -/
theorem selectInstruction_mem_iff :
    selectInstruction ∈ m.instructions language ↔ ∃ e ∈ m.elements, e.content.isSelect = true := by
  refine ⟨fun h => ?_, fun h => mem_instructions.2 (.inr (.inr (.inl ⟨h, rfl⟩)))⟩
  have hother : ∀ part ∈ aboutPlurals language, selectInstruction ≠ part := by
    rintro part hpart rfl
    exact selectInstruction_not_mem language hpart
  rcases mem_instructions.1 h with ⟨-, heq⟩ | ⟨-, heq⟩ | ⟨hselect, -⟩ | ⟨-, heq⟩
  · exact absurd heq (hother _ (by simp [aboutPlurals]))
  · exact absurd heq (hother _ (by simp [aboutPlurals]))
  · exact hselect
  · exact absurd heq (hother _ (by simp [aboutPlurals]))

/-- A plural is cardinal or ordinal. -/
theorem Content.isPlural_iff (c : Content) :
    c.isPlural = true ↔ c.isCardinal = true ∨ c.isOrdinal = true := by
  cases c <;> simp [isPlural, isCardinal, isOrdinal]

/-- Plurals are spoken of exactly if the message holds one at some depth. -/
theorem exists_aboutPlurals_iff {inside : String → Message} (h : m.Unites inside) :
    (∃ part ∈ m.instructions language, part ∈ aboutPlurals language) ↔ m.hasPlurals = true := by
  have htop : ∀ e ∈ m.elements, e.content.isPlural = true → m.hasPlurals = true :=
    fun e he hplural => h.plurals.2 ⟨e, he, .inl hplural⟩
  constructor
  · rintro ⟨part, hpart, habout⟩
    rcases mem_instructions.1 hpart with ⟨⟨e, he, hc⟩, -⟩ | ⟨⟨e, he, hc⟩, -⟩ | ⟨-, rfl⟩ | ⟨hheld, -⟩
    · exact htop e he (e.content.isPlural_iff.2 (.inl hc))
    · exact htop e he (e.content.isPlural_iff.2 (.inr hc))
    · exact absurd habout (selectInstruction_not_mem language)
    · exact hheld.1
  · intro hplurals
    by_cases hnested : ∃ e ∈ m.elements, e.content.isPlural = true
    · obtain ⟨e, he, hc⟩ := hnested
      rcases e.content.isPlural_iff.1 hc with hc | hc
      · exact ⟨_, mem_instructions.2 (.inl ⟨⟨e, he, hc⟩, rfl⟩), by simp [aboutPlurals]⟩
      · exact ⟨_, mem_instructions.2 (.inr (.inl ⟨⟨e, he, hc⟩, rfl⟩)), by simp [aboutPlurals]⟩
    · exact ⟨_, mem_instructions.2 (.inr (.inr (.inr ⟨⟨hplurals, hnested⟩, rfl⟩))),
        by simp [aboutPlurals]⟩

/-- A message with constructs has instructions. -/
theorem instructions_ne_nil {inside : String → Message} (h : m.Unites inside)
    (hcomplex : m.isComplex = true) : m.instructions language ≠ [] := by
  obtain ⟨e, he, hc | hc⟩ := h.complex.1 hcomplex
  · have hplurals : ∃ part ∈ m.instructions language, part ∈ aboutPlurals language :=
      (exists_aboutPlurals_iff h).2 (h.plurals.2 ⟨e, he, .inl hc⟩)
    obtain ⟨part, hpart, -⟩ := hplurals
    exact List.ne_nil_of_mem hpart
  · exact List.ne_nil_of_mem (selectInstruction_mem_iff.2 ⟨e, he, hc⟩)

/-- Texts of which none is empty are not empty together. -/
theorem intercalate_ne_empty {parts : List String} (h : parts ≠ []) (hparts : ∀ part ∈ parts, part ≠ "") :
    " ".intercalate parts ≠ "" := by
  obtain ⟨first, rest, rfl⟩ := List.exists_cons_of_ne_nil h
  have hfirst := hparts first List.mem_cons_self
  cases rest with
  | nil => simpa using hfirst
  | cons second rest => simp [String.intercalate_cons_cons, hfirst]

/-- The instructions for a message with constructs are joined to one text. -/
theorem instructions_eq_some {source : String} (h : parse source = .ok m)
    (hcomplex : m.isComplex = true) :
    instructions source language = some (" ".intercalate (m.instructions language)) := by
  have htext : " ".intercalate (m.instructions language) ≠ "" :=
    intercalate_ne_empty (instructions_ne_nil (unites_of_parse h) hcomplex)
      fun part hpart => ne_empty_of_mem (about_of_mem_instructions hpart)
  rw [instructions, h]
  dsimp only
  rw [if_pos hcomplex, instructions.given, if_neg htext]

/-- There are no instructions exactly for a text that is no message or has no construct. A message
with constructs has a text made of instructions. They speak of plurals exactly if the message holds
one at some depth, and of selects exactly if there is one among the elements of the message itself.
So they speak of selects as they ought to unless all selects are inside of branches. -/
theorem instructions_cover (source language : String) :
    (instructions source language = none ↔ ∀ m, parse source = .ok m → m.isComplex = false) ∧
      ∀ m, parse source = .ok m → m.isComplex = true →
        instructions source language = some (" ".intercalate (m.instructions language)) ∧
        m.instructions language ≠ [] ∧
        ((∃ part ∈ m.instructions language, part ∈ aboutPlurals language) ↔ m.hasPlurals = true) ∧
        (selectInstruction ∈ m.instructions language ↔
          ∃ e ∈ m.elements, e.content.isSelect = true) ∧
        ((selectInstruction ∈ m.instructions language ↔ m.hasSelect = true) ↔
          (m.hasSelect = true → ∃ e ∈ m.elements, e.content.isSelect = true)) := by
  constructor
  · cases hparse : parse source with
    | error e =>
        rw [instructions, hparse]
        simp
    | ok m =>
        cases hcomplex : m.isComplex with
        | false =>
            rw [instructions, hparse]
            simp [hcomplex]
        | true =>
            rw [instructions_eq_some hparse hcomplex]
            simp [hcomplex]
  · intro m hparse hcomplex
    have hunites := unites_of_parse hparse
    refine ⟨instructions_eq_some hparse hcomplex, instructions_ne_nil hunites hcomplex,
      exists_aboutPlurals_iff hunites, selectInstruction_mem_iff, ?_⟩
    rw [selectInstruction_mem_iff]
    refine ⟨fun h => h.2, fun h => ⟨?_, h⟩⟩
    rintro ⟨e, he, hselect⟩
    exact hunites.select.2 ⟨e, he, .inl hselect⟩

/-- A select whose option holds a plural: both are spoken of. -/
theorem instructions_cover_outer_select :
    let source := "\x7bg, select, a \x7b\x7bn, plural, other \x7bx\x7d\x7d\x7d\x7d"
    ∃ m, parse source = .ok m ∧ m.isComplex = true ∧
      m.hasPlurals = true ∧ m.hasSelect = true ∧
      (∃ part ∈ m.instructions "pl", part ∈ aboutPlurals "pl") ∧
      selectInstruction ∈ m.instructions "pl" := by
  intro source
  let option : Branch := ⟨"a", "\x7bn, plural, other \x7bx\x7d\x7d"⟩
  let m : Message := ⟨⟨source, [⟨.select "g" [option], 0, 39⟩]⟩, ["g", "n"], true, true⟩
  have hm : parse source = .ok m := by decide +kernel
  obtain ⟨-, -, hplurals, hselect, -⟩ := (instructions_cover source "pl").2 m hm rfl
  exact ⟨m, hm, rfl, rfl, rfl, hplurals.2 rfl, hselect.2 ⟨_, List.mem_cons_self, rfl⟩⟩

/-- A select inside a plural is passed over: the text does not have the instruction about selects
anywhere. -/
theorem instructions_inner_select :
    let source := "\x7bn, plural, other \x7b\x7bg, select, other \x7bx\x7d\x7d\x7d\x7d"
    ∃ m text, parse source = .ok m ∧ m.isComplex = true ∧ m.hasSelect = true ∧
      instructions source "en" = some text ∧ selectInstruction ∉ m.instructions "en" ∧
      ¬ selectInstruction.toList <:+: text.toList := by
  intro source
  let variant : Branch := ⟨"other", "\x7bg, select, other \x7bx\x7d\x7d"⟩
  let m : Message := ⟨⟨source, [⟨.plural "n" none [variant], 0, 43⟩]⟩, ["n", "g"], true, true⟩
  have hm : parse source = .ok m := by decide +kernel
  refine ⟨m, pluralInstruction "en", hm, rfl, rfl, ?_, ?_, ?_⟩
  · rw [instructions_eq_some hm rfl]
    rfl
  · rw [selectInstruction_mem_iff]
    decide
  · decide +kernel

end MessageFormat
