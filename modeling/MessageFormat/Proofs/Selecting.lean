import MessageFormat.Proofs.Completing

/-!
# Selected variants

Which text of a plural is shown for a number. A formatter takes the variant for this very number,
or else the one of the number's category, or else `other`. `Plural.selected?_completeFor` says what
becomes of that choice when the variants are completed: it stays the same where there was one, and
everywhere else the text for missing categories is chosen.
-/

namespace MessageFormat.Plural

/-- The text that is shown for a number that is written as `literal` and has the category `c`. -/
def selected? (variants : List Branch) (literal : String) (c : Category) : Option String :=
  ((textOf? variants ("=" ++ literal)).or (textOf? variants c.name)).or
    (textOf? variants Category.other.name)

variable {required : List Category}

/-- A key that starts with an equals sign is the name of no category. -/
theorem ofName?_equals (literal : String) : Category.ofName? ("=" ++ literal) = none := by
  cases hname : Category.ofName? ("=" ++ literal) with
  | none => rfl
  | some c =>
      have hexact : (Branch.mk ("=" ++ literal) "").isExact = true := by
        simp [Branch.isExact]
      rw [isExact_eq_false hname] at hexact
      cases hexact

/-- Completing changes no exact match and adds none. -/
theorem textOf?_completeFor_equals (required : List Category) (variants : List Branch)
    (literal : String) :
    textOf? (completeFor required variants) ("=" ++ literal) =
      textOf? variants ("=" ++ literal) := by
  rw [textOf?_eq, textOf?_eq, branchFor_completeFor, added?_eq_none _ (ofName?_equals literal),
    Option.or_none]

/-- A category keeps its text, or else gets the text for missing categories if it is required. -/
theorem textOf?_completeFor_name (required : List Category) (variants : List Branch)
    (c : Category) :
    textOf? (completeFor required variants) c.name =
      (textOf? variants c.name).or (if c ∈ required then some (fallback variants) else none) := by
  rw [textOf?_eq, textOf?_eq, branchFor_completeFor, added?]
  simp only [mem_required]
  cases branchFor c.name variants with
  | some b => rfl
  | none => split <;> rfl

/-- What is selected is selected from the completed variants too, and where nothing is, the text for
missing categories is selected from them. -/
theorem selected?_completeFor (hother : .other ∈ required) (variants : List Branch)
    (literal : String) (c : Category) :
    selected? (completeFor required variants) literal c =
      some ((selected? variants literal c).getD (fallback variants)) := by
  rw [selected?, selected?, textOf?_completeFor_equals, textOf?_completeFor_name,
    textOf?_completeFor_other hother]
  cases textOf? variants ("=" ++ literal) with
  | some text => rfl
  | none =>
      cases textOf? variants c.name with
      | some text => rfl
      | none =>
          -- Whether or not the category is required, its text is now that of `other`.
          have hfallback : fallback variants =
              (textOf? variants Category.other.name).getD (fallback variants) := by
            cases hfound : textOf? variants Category.other.name with
            | none => rfl
            | some text => rw [fallback, hfound]; rfl
          rw [Option.none_or, Option.none_or, Option.none_or, Option.none_or, ← hfallback]
          split <;> rfl

/-- From completed variants a text is selected for every number, and it is the one that was selected
before, if there was one. -/
theorem selected_complete (tag : String) (kind : Kind) (variants : List Branch)
    (literal : String) (c : Category) :
    (selected? (complete tag kind variants) literal c).isSome = true ∧
      ∀ text, selected? variants literal c = some text →
        selected? (complete tag kind variants) literal c = some text := by
  have hselected := selected?_completeFor (other_mem_required tag kind) variants literal c
  rw [complete, hselected]
  refine ⟨rfl, fun text htext => ?_⟩
  rw [htext]
  rfl

/-- A Polish plural that has `few` twice and no `many`, which its language requires. -/
theorem selected_complete_polish :
    let variants : List Branch := [⟨"few", "a"⟩, ⟨"other", "b"⟩, ⟨"=5", "c"⟩, ⟨"few", "d"⟩]
    selected? variants "22" .few = some "a" ∧ selected? variants "7" .many = some "b" ∧
      selected? (complete "pl" .cardinal variants) "22" .few = some "a" ∧
      selected? (complete "pl" .cardinal variants) "7" .many = some "b" := by
  intro variants
  have hfew : selected? variants "22" .few = some "a" := by decide
  have hmany : selected? variants "7" .many = some "b" := by decide
  exact ⟨hfew, hmany, (selected_complete "pl" .cardinal variants "22" .few).2 "a" hfew,
    (selected_complete "pl" .cardinal variants "7" .many).2 "b" hmany⟩

end MessageFormat.Plural
