import Mathlib.Data.List.Forall2
import MessageFormat.Replacements.OfJson

/-!
# Sections of replacements

For which values reading replacements ends with replacements or with a fault that is reported. A
section may be sound, or it may hold something wrong, which is reported; only a section that is
neither blank nor an object is not (`BrokenSection`). The sections are read one after another, so
reading breaks off exactly if the first section that is not sound is broken
(`Supplied.answers_ofJson_iff`).
-/

namespace MessageFormat

/-- The value is a string. -/
def Json.IsString (v : Json) : Prop :=
  ∃ s, v = .string s

namespace Supplied

/-! ### Sound values -/

/-- The entry is a text under the index of an element. -/
def SoundText (entry : CodeString × Json) : Prop :=
  (∃ (key : String) (index : Int), entry.1 = key ∧ Text.readInteger key.toList = some index) ∧
    entry.2.IsString

/-- The value lists branches: it is an object of strings, or a list of objects of which each has the
two members of a branch. -/
inductive SoundBranches (fields : BranchFields) : Json → Prop where
  | object {members : List (CodeString × Json)} :
      (∀ member ∈ members, member.2.IsString) → SoundBranches fields (.object members)
  | array {items : List Json} :
      (∀ item ∈ items, ∃ members, item = .object members ∧
        (Json.member? members fields.key).IsString ∧
        (Json.member? members fields.text).IsString) →
      SoundBranches fields (.array items)

/-- The sections in the order in which they are read, with what their entries have to be. -/
def sections : List (String × (CodeString × Json → Prop)) :=
  [("text", SoundText), ("plurals", fun entry => SoundBranches variantFields entry.2),
    ("selects", fun entry => SoundBranches optionFields entry.2)]

/-- The section is blank or has sound entries. -/
def SoundSection (members : List (CodeString × Json)) (name : String)
    (sound : CodeString × Json → Prop) : Prop :=
  (Json.member? members name).isBlank = true ∨
    ∃ entries, Json.member? members name = .object entries ∧ ∀ entry ∈ entries, sound entry

/-- The section is neither blank nor an object. -/
def BrokenSection (members : List (CodeString × Json)) (name : String) : Prop :=
  (Json.member? members name).isBlank = false ∧
    ∀ entries, Json.member? members name ≠ .object entries

/-- Of the sections, the first that is not sound is broken. -/
def BreaksOffIn (members : List (CodeString × Json)) :
    List (String × (CodeString × Json → Prop)) → Prop
  | [] => False
  | (name, sound) :: rest =>
    BrokenSection members name ∨ SoundSection members name sound ∧ BreaksOffIn members rest

/-- The value is an object in which the first section that is not sound is broken. -/
def BreaksOff : Json → Prop
  | .object members => BreaksOffIn members sections
  | _ => False

/-! ### Answers -/

/-- Reading ends with a result or with a fault that is reported. -/
def Answers {α : Type} (x : Except InputFault α) : Prop :=
  (∃ r, x = .ok r) ∨ ∃ fault report, x = .error fault ∧ fault.message? = some report

variable {α β γ : Type} {f : α → Except InputFault β} {g : β → Except InputFault γ}
  {members : List (CodeString × Json)} {name : String} {owner : CodeString}

/-- Reading one thing after another ends well if the first does and then the second. -/
theorem answers_bind_iff {x : Except InputFault α} :
    Answers (x >>= f) ↔ Answers x ∧ ∀ r, x = .ok r → Answers (f r) := by
  cases x with
  | error fault => simp [Answers, bind, Except.bind]
  | ok r => simp [Answers, bind, Except.bind]

/-- Reading one thing after another succeeds if the first does and then the second. -/
theorem ok_bind_iff {x : Except InputFault α} :
    (∃ r, x >>= f = .ok r) ↔ ∃ a, x = .ok a ∧ ∃ r, f a = .ok r := by
  cases x with
  | error fault => simp [bind, Except.bind]
  | ok r => simp [bind, Except.bind]

/-- Reading ends well when nothing but the result is changed afterwards. -/
theorem answers_map {h : α → β} {x : Except InputFault α} : Answers (x.map h) ↔ Answers x := by
  cases x <;> simp [Answers, Except.map]

/-- Reading succeeds when nothing but the result is changed afterwards. -/
theorem ok_map_iff {h : α → β} {x : Except InputFault α} :
    (∃ r, x.map h = .ok r) ↔ ∃ r, x = .ok r := by
  cases x <;> simp [Except.map]

/-- A list is read item by item. -/
theorem mapM_eq_ok_iff {xs : List α} {ys : List β} :
    xs.mapM f = .ok ys ↔ List.Forall₂ (fun x y => f x = .ok y) xs ys := by
  induction xs generalizing ys with
  | nil => simp [pure, Except.pure, eq_comm]
  | cons x xs ih =>
      rw [List.mapM_cons, List.forall₂_cons_left_iff]
      cases hx : f x with
      | error fault => simp [bind, Except.bind]
      | ok y =>
          cases hxs : xs.mapM f with
          | error fault => simp [bind, Except.bind, ← ih, hxs]
          | ok zs => simp [bind, Except.bind, pure, Except.pure, ← ih, hxs, eq_comm]

/-- Reading a list ends well when reading each item does. -/
theorem answers_mapM {xs : List α} (h : ∀ x ∈ xs, Answers (f x)) : Answers (xs.mapM f) := by
  induction xs with
  | nil => exact .inl ⟨[], rfl⟩
  | cons x xs ih =>
      rw [List.mapM_cons, answers_bind_iff]
      refine ⟨h x List.mem_cons_self, fun y _ => answers_bind_iff.2 ⟨?_, fun ys _ => .inl ⟨_, rfl⟩⟩⟩
      exact ih fun x' hx' => h x' (List.mem_cons_of_mem _ hx')

/-- Items can be chosen one by one. -/
theorem exists_forall₂_iff {R : α → β → Prop} {P : β → Prop} {xs : List α} :
    (∃ ys, List.Forall₂ R xs ys ∧ ∀ y ∈ ys, P y) ↔ ∀ x ∈ xs, ∃ y, R x y ∧ P y := by
  induction xs with
  | nil => simp
  | cons x xs ih =>
      simp only [List.forall₂_cons_left_iff, List.forall_mem_cons, ← ih]
      constructor
      · rintro ⟨_, ⟨y, ys, hy, hys, rfl⟩, hP⟩
        rw [List.forall_mem_cons] at hP
        exact ⟨⟨y, hy, hP.1⟩, ys, hys, hP.2⟩
      · rintro ⟨⟨y, hy, hPy⟩, ys, hys, hP⟩
        exact ⟨y :: ys, ⟨y, ys, hy, hys, rfl⟩, List.forall_mem_cons.2 ⟨hPy, hP⟩⟩

/-- Reading a list succeeds when reading each item does. -/
theorem ok_mapM_iff {xs : List α} : (∃ ys, xs.mapM f = .ok ys) ↔ ∀ x ∈ xs, ∃ y, f x = .ok y := by
  have h : (∃ ys, List.Forall₂ (fun x y => f x = .ok y) xs ys ∧ ∀ y ∈ ys, True) ↔
      ∀ x ∈ xs, ∃ y, f x = .ok y ∧ True := exists_forall₂_iff
  simpa [mapM_eq_ok_iff] using h

/-- Reading a list twice over succeeds when reading each item twice does. -/
theorem ok_mapM_mapM_iff {xs : List α} :
    (∃ zs, (xs.mapM f >>= fun ys => ys.mapM g) = .ok zs) ↔
      ∀ x ∈ xs, ∃ y, f x = .ok y ∧ ∃ z, g y = .ok z := by
  rw [ok_bind_iff, ← exists_forall₂_iff]
  simp only [mapM_eq_ok_iff, ← ok_mapM_iff]

/-! ### Entries -/

/-- Texts are read when they are sound, and otherwise reported. -/
theorem answers_readText (entry : CodeString × Json) : Answers (readText entry) := by
  rw [readText]
  split
  · exact .inr ⟨_, _, rfl, rfl⟩
  · split
    · exact .inl ⟨_, rfl⟩
    · exact .inr ⟨_, _, rfl, rfl⟩

/-- An index is what an integer writes that is the text of the key. -/
theorem index?_eq_some_iff {key : CodeString} {index : Int} :
    index? key = some index ↔
      ∃ text : String, key = text ∧ Text.readInteger text.toList = some index := by
  simp only [index?, Option.bind_eq_some_iff, CodeString.text?_eq_some_iff]

/-- The texts that are read are the sound ones. -/
theorem ok_readText_iff {entry : CodeString × Json} :
    (∃ r, readText entry = .ok r) ↔ SoundText entry := by
  obtain ⟨key, value⟩ := entry
  have hsound : SoundText (key, value) ↔ (∃ index, index? key = some index) ∧ value.IsString := by
    simp only [SoundText, index?_eq_some_iff]
    rw [exists_comm]
  rw [hsound]
  cases hindex : index? key with
  | none => simp [readText, hindex]
  | some index => cases value <;> simp [readText, Json.IsString, hindex]

/-- The parts of a branch make a branch exactly if both are strings. -/
theorem ok_makeBranch_iff {fields : BranchFields} {parts : Json × Json} :
    (∃ r, makeBranch fields owner parts = .ok r) ↔ parts.1.IsString ∧ parts.2.IsString := by
  obtain ⟨key, text⟩ := parts
  cases key <;> cases text <;> simp [makeBranch, Json.IsString]

/-- Parts of a branch make a branch or are reported. -/
theorem answers_makeBranch (fields : BranchFields) (owner : CodeString) (parts : Json × Json) :
    Answers (makeBranch fields owner parts) := by
  rw [makeBranch.eq_def]
  split
  · exact .inl ⟨_, rfl⟩
  · exact .inr ⟨_, _, rfl, rfl⟩

/-- Branches are read or reported. -/
theorem answers_readBranches (fields : BranchFields) (owner : CodeString) (value : Json) :
    Answers (readBranches fields owner value) := by
  rw [readBranches.eq_def]
  split
  · exact answers_mapM fun member _ => answers_makeBranch fields owner _
  · refine answers_bind_iff.2 ⟨answers_mapM fun item _ => ?_, fun parts _ => ?_⟩
    · rw [branchParts.eq_def]
      split
      · exact .inl ⟨_, rfl⟩
      · exact .inr ⟨_, _, rfl, rfl⟩
    · exact answers_mapM fun part _ => answers_makeBranch fields owner part
  · exact .inr ⟨_, _, rfl, rfl⟩

/-- The branches that are read are the sound ones. -/
theorem ok_readBranches_iff {fields : BranchFields} {value : Json} :
    (∃ r, readBranches fields owner value = .ok r) ↔ SoundBranches fields value := by
  cases value with
  | object members =>
      simp only [readBranches, ok_mapM_iff, ok_makeBranch_iff]
      constructor
      · exact fun h => .object fun member hmember => (h member hmember).2
      · rintro ⟨h⟩ member hmember
        exact ⟨⟨member.1, rfl⟩, h member hmember⟩
  | array items =>
      rw [readBranches, ok_mapM_mapM_iff]
      simp only [ok_makeBranch_iff]
      constructor
      · refine fun h => .array fun item hitem => ?_
        obtain ⟨parts, hparts, hkey, htext⟩ := h item hitem
        cases item with
        | object members =>
            cases hparts
            exact ⟨members, rfl, hkey, htext⟩
        | _ => cases hparts
      · rintro (_ | h) item hitem
        obtain ⟨members, rfl, hkey, htext⟩ := h item hitem
        exact ⟨_, rfl, hkey, htext⟩
  | _ =>
      constructor
      · rintro ⟨r, h⟩
        cases h
      · rintro ⟨⟩

/-! ### Sections -/

/-- What is no object has no members, and is broken unless it is blank. -/
theorem sectionOf_of_ne (h : ∀ entries, Json.member? members name ≠ .object entries) :
    sectionOf members name =
      if (Json.member? members name).isBlank then .ok [] else .error (.brokenSection name) := by
  rw [sectionOf]
  split
  · next entries hentries => exact absurd hentries (h entries)
  · rfl

/-- A section whose entries are each read or reported is read or reported unless it is broken. -/
theorem answers_section_iff {read : CodeString × Json → Except InputFault β}
    (hread : ∀ entry, Answers (read entry)) :
    Answers (sectionOf members name >>= List.mapM read) ↔ ¬ BrokenSection members name := by
  have hentries : ∀ entries, Answers (List.mapM read entries) :=
    fun entries => answers_mapM fun entry _ => hread entry
  rw [answers_bind_iff, and_iff_left fun entries _ => hentries entries, BrokenSection]
  by_cases hobject : ∃ entries, Json.member? members name = .object entries
  · obtain ⟨entries, hentries⟩ := hobject
    simp [sectionOf, hentries, Answers]
  · push Not at hobject
    rw [sectionOf_of_ne hobject]
    split <;> simp_all [Answers, InputFault.message?]

/-- The sections that are read are the sound ones. -/
theorem ok_section_iff {read : CodeString × Json → Except InputFault β}
    {sound : CodeString × Json → Prop}
    (hread : ∀ entry, (∃ r, read entry = .ok r) ↔ sound entry) :
    (∃ r, sectionOf members name >>= List.mapM read = .ok r) ↔
      SoundSection members name sound := by
  rw [ok_bind_iff, SoundSection]
  simp only [ok_mapM_iff, hread]
  by_cases hobject : ∃ entries, Json.member? members name = .object entries
  · obtain ⟨entries, hentries⟩ := hobject
    -- An object that is blank has no entries that could be wrong.
    cases entries <;> simp [sectionOf, hentries, Json.isBlank]
  · push Not at hobject
    rw [sectionOf_of_ne hobject]
    split <;> simp_all

/-- What is read after a section breaks off if the section is broken, or if it is sound and what
follows breaks off. -/
theorem answers_section_bind {read : CodeString × Json → Except InputFault β}
    {sound : CodeString × Json → Prop} (hread : ∀ entry, Answers (read entry))
    (hsound : ∀ entry, (∃ r, read entry = .ok r) ↔ sound entry)
    {next : List β → Except InputFault γ} {breaksOff : Prop}
    (hnext : ∀ r, Answers (next r) ↔ ¬ breaksOff) :
    Answers (sectionOf members name >>= fun entries => entries.mapM read >>= next) ↔
      ¬ (BrokenSection members name ∨ SoundSection members name sound ∧ breaksOff) := by
  rw [← bind_assoc (m := Except InputFault), answers_bind_iff, answers_section_iff hread, not_or,
    not_and, ← ok_section_iff hsound, forall_exists_index]
  simp only [hnext]

/-- The branches of a variable are read under its name or reported. -/
theorem answers_entry (fields : BranchFields) (entry : CodeString × Json) :
    Answers ((readBranches fields entry.1 entry.2).map (entry.1, ·)) :=
  answers_map.2 (answers_readBranches fields entry.1 entry.2)

/-- The branches of a variable are read under its name when they are sound. -/
theorem ok_entry_iff (fields : BranchFields) (entry : CodeString × Json) :
    (∃ r, (readBranches fields entry.1 entry.2).map (entry.1, ·) = .ok r) ↔
      SoundBranches fields entry.2 :=
  ok_map_iff.trans ok_readBranches_iff

/-- Reading replacements ends with replacements or with a report, unless a broken section is the
first that is not sound. -/
theorem answers_ofJson_iff (v : Json) : Answers (ofJson v) ↔ ¬ BreaksOff v := by
  cases v with
  | object members =>
      refine answers_section_bind answers_readText (fun _ => ok_readText_iff) fun text => ?_
      refine answers_section_bind (answers_entry variantFields) (ok_entry_iff variantFields)
        fun plurals => ?_
      refine answers_section_bind (answers_entry optionFields) (ok_entry_iff optionFields)
        fun selects => ?_
      exact iff_of_true (.inl ⟨_, rfl⟩) not_false
  | _ => simp [BreaksOff, ofJson, Answers, InputFault.message?]

end Supplied

end MessageFormat
