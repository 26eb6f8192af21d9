import Mathlib.Data.List.Basic
import MessageFormat.Rebuild.Merge

/-!
# Merged branches

Which branches a construct gets when all of its keys are translated: for each key the first branch
that was translated, and for a plural also the categories that its language asks for.
`branchFor` looks a key up, and each step from the translated branches to the written ones is shown
to leave what it finds alone.
-/

namespace MessageFormat

/-- The first branch with a key. -/
def branchFor (key : String) (branches : List Branch) : Option Branch :=
  branches.find? fun b => b.key == key

/-- The branches with a key. -/
def branchesWith (key : String) (branches : List Branch) : List Branch :=
  branches.filter fun b => b.key == key

/-- A branch that is found under a key has it. -/
theorem key_of_branchFor {key : String} {branches : List Branch} {b : Branch}
    (h : branchFor key branches = some b) : b.key = key := by
  have := List.find?_some h
  simpa using this

/-- A branch is found under each of the keys. -/
theorem exists_branchFor {key : String} {branches : List Branch}
    (h : key ∈ branches.map (·.key)) : ∃ b, branchFor key branches = some b := by
  obtain ⟨b, hb, rfl⟩ := List.mem_map.1 h
  rw [branchFor]
  cases hfind : branches.find? fun b' => b'.key == b.key with
  | some b' => exact ⟨b', rfl⟩
  | none => exact absurd (List.find?_eq_none.1 hfind b hb) (by simp)

/-! ### The first branch of each key -/

/-- The first branches are branches. -/
theorem mem_of_mem_firstPerKey {branches : List Branch} {b : Branch}
    (h : b ∈ firstPerKey branches) : b ∈ branches := by
  induction branches with
  | nil => exact h
  | cons c branches ih =>
      rw [firstPerKey] at h
      rcases List.mem_cons.1 h with rfl | h
      · exact List.mem_cons_self
      · exact List.mem_cons_of_mem _ (ih (List.mem_filter.1 h).1)

/-- Of each key one branch is kept, the first. -/
theorem branchesWith_firstPerKey (key : String) (branches : List Branch) :
    branchesWith key (firstPerKey branches) = (branchFor key branches).toList := by
  induction branches with
  | nil => rfl
  | cons b branches ih =>
      rw [branchesWith, branchFor] at ih ⊢
      rw [firstPerKey, List.filter_cons, List.find?_cons, List.filter_filter]
      -- The first branch has removed those with its key from the others, which matters for this key
      -- only if it is the same.
      cases hb : b.key == key with
      | true =>
          rw [beq_iff_eq] at hb
          have hnone : (firstPerKey branches).filter
              (fun c => c.key == key && c.key != b.key) = [] := by
            rw [List.filter_eq_nil_iff]
            intro c _
            simp [hb]
          rw [hnone]
          rfl
      | false =>
          rw [beq_eq_false_iff_ne] at hb
          have hsame : (firstPerKey branches).filter
              (fun c => c.key == key && c.key != b.key) =
                (firstPerKey branches).filter fun c => c.key == key := by
            refine List.filter_congr fun c _ => ?_
            cases hc : c.key == key with
            | false => rfl
            | true =>
                rw [beq_iff_eq] at hc
                simpa [hc] using hb.symm
          rw [hsame, ih]
          rfl

/-- The first branch with a key is kept. -/
theorem branchFor_firstPerKey (key : String) (branches : List Branch) :
    branchFor key (firstPerKey branches) = branchFor key branches := by
  have h := branchesWith_firstPerKey key branches
  rw [branchFor, ← List.head?_filter]
  show (branchesWith key (firstPerKey branches)).head? = _
  rw [h]
  cases branchFor key branches <;> rfl

/-- Of a part of the kept branches, each key has the first branch if that is in the part. -/
theorem branchesWith_filter_firstPerKey (key : String) (p : Branch → Bool)
    (branches : List Branch) :
    branchesWith key ((firstPerKey branches).filter p) =
      ((branchFor key branches).filter p).toList := by
  rw [Option.toList_filter, ← branchesWith_firstPerKey, branchesWith, branchesWith,
    List.filter_comm]

/-- Of one branch there is one order. -/
theorem branchesWith_perm {first second : List Branch} (hperm : first.Perm second) {key : String}
    {found : Option Branch} (h : branchesWith key first = found.toList) :
    branchesWith key second = found.toList := by
  have hperm := hperm.symm.filter fun b => b.key == key
  rw [branchesWith] at h ⊢
  rw [h] at hperm
  cases found with
  | none => exact hperm.eq_nil
  | some b => exact List.perm_singleton.1 hperm

/-- Sorting moves branches only. -/
theorem branchesWith_mergeSort (le : Branch → Branch → Bool) {key : String}
    {branches : List Branch} {found : Option Branch}
    (h : branchesWith key branches = found.toList) :
    branchesWith key (branches.mergeSort le) = found.toList :=
  branchesWith_perm (List.mergeSort_perm branches le).symm h

/-- What depends on keys alone is found among the first branches where it is found at all. -/
theorem find?_firstPerKey {p : Branch → Bool} (hp : ∀ b c : Branch, b.key = c.key → p b = p c)
    (branches : List Branch) : (firstPerKey branches).find? p = branches.find? p := by
  induction branches with
  | nil => rfl
  | cons b branches ih =>
      rw [firstPerKey, List.find?_cons, List.find?_cons, List.find?_filter]
      cases hb : p b with
      | true => rfl
      | false =>
          -- The branches removed with the first one are as little looked for as it is.
          have hsame : ∀ c : Branch, decide ((c.key != b.key) = true ∧ p c = true) = p c := by
            intro c
            cases hc : p c with
            | false => simp
            | true =>
                have hne : c.key ≠ b.key := by
                  intro heq
                  rw [hp c b heq, hb] at hc
                  cases hc
                simpa using hne
          simp only [hsame]
          exact ih

/-- A branch that is kept is the first one with its key. -/
theorem branchFor_of_mem_firstPerKey {branches : List Branch} {b : Branch}
    (h : b ∈ firstPerKey branches) : branchFor b.key branches = some b := by
  have hmem : b ∈ branchesWith b.key (firstPerKey branches) :=
    List.mem_filter.2 ⟨h, by simp⟩
  rw [branchesWith_firstPerKey] at hmem
  simpa using hmem

/-! ### Merging -/

variable {source translated : List Branch}

/-- When all keys are translated, the variants are the translated ones. -/
theorem mergeVariants_eq (keep : Bool) (h : source.map (·.key) = translated.map (·.key)) :
    mergeVariants keep source translated = firstPerKey translated := by
  rw [mergeVariants]
  split
  · next hnil =>
    subst hnil
    rw [List.map_nil, List.map_eq_nil_iff] at h
    rw [h]
    rfl
  · have hcarried : (source.filter fun b =>
        b.isExact && !(firstPerKey translated).any fun c => c.key == b.key) = [] := by
      rw [List.filter_eq_nil_iff]
      intro b hb
      have hkey : b.key ∈ translated.map (·.key) := by
        rw [← h]
        exact List.mem_map_of_mem hb
      obtain ⟨c, hc⟩ := exists_branchFor hkey
      rw [← branchFor_firstPerKey] at hc
      have hany : ((firstPerKey translated).any fun c => c.key == b.key) = true :=
        List.any_eq_true.2 ⟨c, List.mem_of_find?_eq_some hc, by simp [key_of_branchFor hc]⟩
      simp [hany]
    simp only [hcarried]
    cases keep <;> rfl

/-- Merged variants are those of the source or translated ones. -/
theorem mem_mergeVariants {keep : Bool} {b : Branch}
    (h : b ∈ mergeVariants keep source translated) : b ∈ source ∨ b ∈ translated := by
  rw [mergeVariants] at h
  split at h
  · exact .inl h
  · rcases List.mem_append.1 h with h | h
    · cases keep with
      | false => cases h
      | true => exact .inl (List.mem_filter.1 h).1
    · exact .inr (mem_of_mem_firstPerKey h)

/-- The kept branches have the same keys when the branches do. -/
theorem keys_firstPerKey (h : source.map (·.key) = translated.map (·.key)) :
    (firstPerKey source).map (·.key) = (firstPerKey translated).map (·.key) := by
  have hfilter : ∀ (key : String) (branches : List Branch),
      (branches.filter fun b => b.key != key).map (·.key) =
        (branches.map (·.key)).filter (· != key) := by
    intro key branches
    rw [List.filter_map]
    rfl
  induction source generalizing translated with
  | nil =>
      obtain rfl := List.map_eq_nil_iff.1 h.symm
      rfl
  | cons b source ih =>
      cases translated with
      | nil => cases h
      | cons c translated =>
          obtain ⟨hkey, hrest⟩ := List.cons.inj h
          have hkey : b.key = c.key := hkey
          rw [firstPerKey, firstPerKey, List.map_cons, List.map_cons, hkey, hfilter, hfilter,
            ih hrest]

/-- When all keys are translated, the options are the translated ones. -/
theorem mergeOptions_eq (h : source.map (·.key) = translated.map (·.key)) :
    mergeOptions source translated = firstPerKey translated := by
  rw [mergeOptions]
  split
  · next hnil =>
    subst hnil
    rw [List.map_nil, List.map_eq_nil_iff] at h
    rw [h]
    rfl
  · have hknown : ((firstPerKey source).filterMap fun b =>
        (firstPerKey translated).find? fun c => c.key == b.key) = firstPerKey translated := by
      calc
        _ = ((firstPerKey source).map (·.key)).filterMap fun key =>
              branchFor key (firstPerKey translated) := by
          rw [List.filterMap_map]
          rfl
        _ = (firstPerKey translated).filterMap fun b =>
              branchFor b.key (firstPerKey translated) := by
          rw [keys_firstPerKey h, List.filterMap_map]
          rfl
        _ = (firstPerKey translated).filterMap some := by
          refine List.filterMap_congr fun b hb => ?_
          rw [branchFor_firstPerKey, branchFor_of_mem_firstPerKey hb]
        _ = firstPerKey translated := List.filterMap_some
    have hadded : ((firstPerKey translated).filter fun c =>
        !source.any fun b => b.key == c.key) = [] := by
      rw [List.filter_eq_nil_iff]
      intro c hc
      have hkey : c.key ∈ source.map (·.key) := by
        rw [h]
        exact List.mem_map_of_mem (mem_of_mem_firstPerKey hc)
      obtain ⟨b, hb, hbc⟩ := List.mem_map.1 hkey
      have hany : (source.any fun b => b.key == c.key) = true :=
        List.any_eq_true.2 ⟨b, hb, by simp [hbc]⟩
      simp [hany]
    simp only [hknown, hadded, List.append_nil]

/-! ### Completing -/

/-- The branch has the name of a category, and its text is that of a variant or empty. -/
structure Branch.IsAdded (variants : List Branch) (b : Branch) : Prop where
  /-- The key is the name of a category. -/
  key : ∃ c : Plural.Category, b.key = c.name
  /-- The text is that of a variant, if there is any. -/
  text : b.text = "" ∨ ∃ v ∈ variants, b.text = v.text

/-- The text that is found under a key is that of a branch with the key. -/
theorem textOf?_eq (branches : List Branch) (key : String) :
    textOf? branches key = (branchFor key branches).map (·.text) :=
  rfl

/-- A category without a variant gets the text of a variant, or the empty text. -/
theorem Plural.fallback_eq (variants : List Branch) :
    Plural.fallback variants = "" ∨ ∃ v ∈ variants, Plural.fallback variants = v.text := by
  rw [Plural.fallback]
  cases hother : textOf? variants Category.other.name with
  | some text =>
      rw [textOf?_eq, Option.map_eq_some_iff] at hother
      obtain ⟨v, hv, rfl⟩ := hother
      exact .inr ⟨v, List.mem_of_find?_eq_some hv, rfl⟩
  | none =>
      cases hfirst : variants.find? fun b => !b.isExact with
      | some v => exact .inr ⟨v, List.mem_of_find?_eq_some hfirst, rfl⟩
      | none =>
          cases variants with
          | nil => exact .inl rfl
          | cons v variants => exact .inr ⟨v, List.mem_cons_self, rfl⟩

/-- The text for a missing category is that of a first branch. -/
theorem Plural.fallback_firstPerKey (variants : List Branch) :
    Plural.fallback (firstPerKey variants) = Plural.fallback variants := by
  have hexact : ∀ b c : Branch, b.key = c.key → (!b.isExact) = !c.isExact := by
    intro b c h
    rw [Branch.isExact, Branch.isExact, h]
  have hhead : (firstPerKey variants).head? = variants.head? := by
    cases variants <;> rfl
  rw [Plural.fallback, Plural.fallback, textOf?_eq, textOf?_eq, branchFor_firstPerKey,
    find?_firstPerKey hexact, hhead]

/-- A category is required exactly if its name is one of the required names. -/
theorem Plural.mem_required {required : List Category} {c : Category} :
    c.name ∈ required.map Category.name ↔ c ∈ required := by
  refine ⟨fun h => ?_, List.mem_map_of_mem⟩
  obtain ⟨c', hc', hname⟩ := List.mem_map.1 h
  have hsame := congrArg Category.ofName? hname
  rw [Category.ofName?_name, Category.ofName?_name] at hsame
  exact Option.some.inj hsame ▸ hc'

/-- The variant of a category has its name, and its text is that of a variant or empty. -/
theorem Plural.isAdded_of_variantFor? {required : List Category} {variants : List Branch}
    {c : Category} {b : Branch} (h : variantFor? variants required c = some b) :
    b.key = c.name ∧ b.IsAdded variants := by
  rw [variantFor?] at h
  split at h
  · next text htext =>
    cases h
    rw [textOf?_eq, Option.map_eq_some_iff] at htext
    obtain ⟨v, hv, rfl⟩ := htext
    exact ⟨rfl, ⟨c, rfl⟩, .inr ⟨v, List.mem_of_find?_eq_some hv, rfl⟩⟩
  · split at h
    · cases h
      exact ⟨rfl, ⟨c, rfl⟩, Plural.fallback_eq variants⟩
    · cases h

/-- Completed variants are variants, or are added for a category. -/
theorem Plural.mem_completeFor {required : List Category} {variants : List Branch} {b : Branch}
    (h : b ∈ completeFor required variants) : b ∈ variants ∨ b.IsAdded variants := by
  rw [completeFor, List.mem_append, List.mem_append, List.mem_mergeSort] at h
  rcases h with (h | h) | h
  · exact .inl (mem_of_mem_firstPerKey (List.mem_filter.1 h).1)
  · obtain ⟨c, -, hc⟩ := List.mem_filterMap.1 h
    obtain ⟨-, hkey, htext⟩ := isAdded_of_variantFor? hc
    refine .inr ⟨hkey, htext.imp_right ?_⟩
    rintro ⟨v, hv, heq⟩
    exact ⟨v, mem_of_mem_firstPerKey hv, heq⟩
  · exact .inl (mem_of_mem_firstPerKey (List.mem_filter.1 h).1)

/-- A branch with the name of a category is no exact match. -/
theorem Plural.isExact_eq_false {b : Branch} {c : Category}
    (h : Category.ofName? b.key = some c) : b.isExact = false := by
  rw [Branch.isExact, ← Category.name_of_ofName? h]
  cases c <;> decide

/-- What only one category makes is made once of all categories. -/
theorem Plural.Category.filterMap_all {α : Type} (f : Category → Option α) (c : Category) :
    (all.filterMap fun c' => if c = c' then f c' else none) = (f c).toList := by
  cases c <;> rfl

/-- Among the variants of the categories, a key has that of the category that it names. -/
theorem Plural.branchesWith_categories (required : List Category) (variants : List Branch)
    (key : String) :
    branchesWith key (Category.all.filterMap (variantFor? variants required)) =
      ((Category.ofName? key).bind (variantFor? variants required)).toList := by
  have hvariant : ∀ c, (variantFor? variants required c).filter (fun b => b.key == key) =
      if Category.ofName? key = some c then variantFor? variants required c else none := by
    intro c
    split
    · next hname =>
      obtain rfl := Category.name_of_ofName? hname
      cases hb : variantFor? variants required c with
      | none => rfl
      | some b =>
          rw [Option.filter_some, (isAdded_of_variantFor? hb).1, beq_self_eq_true, if_pos rfl]
    · next hname =>
      rw [Option.filter_eq_none_iff]
      intro b hb heq
      have hkey := (isAdded_of_variantFor? hb).1
      rw [beq_iff_eq.1 heq] at hkey
      rw [hkey, Category.ofName?_name] at hname
      exact hname rfl
  rw [branchesWith, List.filter_filterMap]
  simp only [hvariant]
  cases Category.ofName? key with
  | none => rfl
  | some c =>
      simp only [Option.some.injEq, Option.bind_some]
      exact Category.filterMap_all (variantFor? variants required) c

/-- The variant that is added under a key, if the key is the name of a required category. -/
def Plural.added? (required : List Category) (variants : List Branch) (key : String) :
    Option Branch :=
  if key ∈ required.map Category.name then some ⟨key, fallback variants⟩ else none

/-- The variant of the category that a key names is the first one with the key, or else one that is
added. -/
theorem Plural.bind_variantFor? (required : List Category) (variants : List Branch)
    (key : String) :
    (Category.ofName? key).bind (variantFor? (firstPerKey variants) required) =
      if (Category.ofName? key).isSome then
        (branchFor key variants).or (added? required variants key)
      else none := by
  cases hname : Category.ofName? key with
  | none => rfl
  | some c =>
      obtain rfl := Category.name_of_ofName? hname
      rw [Option.bind_some, Option.isSome_some, if_pos rfl, variantFor?, textOf?_eq,
        branchFor_firstPerKey, fallback_firstPerKey]
      cases hfound : branchFor c.name variants with
      | some b =>
          rw [← key_of_branchFor hfound]
          rfl
      | none =>
          rw [Option.none_or, added?]
          simp only [mem_required]
          rfl

/-- No variant is added under a key that is not the name of a category. -/
theorem Plural.added?_eq_none {required : List Category} (variants : List Branch) {key : String}
    (h : Category.ofName? key = none) : added? required variants key = none := by
  refine if_neg fun hmem => ?_
  obtain ⟨c, -, rfl⟩ := List.mem_map.1 hmem
  rw [Category.ofName?_name] at h
  cases h

/-- Under a key, the completed variants have the first variant, or else one that is added. -/
theorem Plural.branchesWith_completeFor (required : List Category) (variants : List Branch)
    (key : String) :
    branchesWith key (completeFor required variants) =
      ((branchFor key variants).or (added? required variants key)).toList := by
  have hexact := branchesWith_filter_firstPerKey key Branch.isExact variants
  have hcategories := branchesWith_categories required (firstPerKey variants) key
  have hunnamed := branchesWith_mergeSort (fun a b => a.key ≤ b.key)
    (branchesWith_filter_firstPerKey key isUnnamed variants)
  rw [bind_variantFor?] at hcategories
  rw [branchesWith] at hexact hcategories hunnamed
  rw [branchesWith, completeFor, List.filter_append, List.filter_append, hexact, hcategories,
    hunnamed]
  -- The variant is in one of the three parts: it is exact, has the name of a category, or neither.
  cases hname : Category.ofName? key with
  | some c =>
      rw [Option.isSome_some, if_pos rfl]
      cases hfound : branchFor key variants with
      | none => exact List.append_nil _
      | some b =>
          have hname' : Category.ofName? b.key = some c := by rw [key_of_branchFor hfound, hname]
          rw [Option.filter_some, Option.filter_some, isUnnamed, hname', isExact_eq_false hname']
          rfl
  | none =>
      rw [added?_eq_none variants hname, Option.or_none]
      cases hfound : branchFor key variants with
      | none => rfl
      | some b =>
          rw [Option.filter_some, Option.filter_some, isUnnamed, key_of_branchFor hfound, hname]
          cases b.isExact <;> rfl

/-- Whether or not the options ask for it, variants are only added for categories. -/
theorem Options.mem_complete {o : Options} {kind : Plural.Kind} {variants : List Branch}
    {b : Branch} (h : b ∈ o.complete kind variants) : b ∈ variants ∨ b.IsAdded variants := by
  rw [Options.complete] at h
  split at h
  · exact Plural.mem_completeFor h
  · exact .inl h

/-- Whether or not the options ask for it, the first variant of a key is its only one. -/
theorem Options.branchesWith_complete {o : Options} {kind : Plural.Kind} {variants : List Branch}
    {key : String} {b : Branch} (h : branchFor key variants = some b) :
    branchesWith key (o.complete kind (firstPerKey variants)) = [b] := by
  rw [Options.complete]
  split
  · rw [Plural.complete, Plural.branchesWith_completeFor, branchFor_firstPerKey, h]
    rfl
  · rw [branchesWith_firstPerKey, h]
    rfl

end MessageFormat
