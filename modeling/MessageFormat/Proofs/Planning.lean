import MessageFormat.Proofs.Completing

/-!
# Planned variants

What the plan of a translation and completing have to do with each other. `Plural.completeFor` looks
at one key after the other; `completeFor_eq_mergeSort` says that the same comes of adding what is
missing, one variant at a time, and sorting the variants stably. So the variants that completing
leaves as they are have a simple form, `Plural.Completed`, and both completed variants and plans
have it.
-/

namespace MessageFormat

/-! ### The order of variants -/

namespace Branch

instance (a b : Branch) : Decidable (a.Precedes b) :=
  inferInstanceAs (Decidable (_ ∨ _ ∧ (_ → _)))

variable {a b c : Branch}

/-- A variant that is no exact match is listed by the category that it names, or at the end. -/
theorem rank_of_not_exact (h : a.isExact = false) :
    a.rank = ((Plural.Category.ofName? a.key).map Plural.Category.all.idxOf).getD
      Plural.Category.all.length + 1 := by
  rw [rank, h]
  cases Plural.Category.ofName? a.key <;> rfl

/-- The exact matches are those that are listed first. -/
theorem rank_eq_zero_iff : a.rank = 0 ↔ a.isExact = true := by
  cases h : a.isExact with
  | true => simp [rank, h]
  | false => simp [rank_of_not_exact h]

/-- The variants without a category are those that are listed last. -/
theorem rank_eq_last_iff : a.rank = Plural.Category.all.length + 1 ↔ Plural.isUnnamed a = true := by
  rw [Plural.isUnnamed]
  cases h : a.isExact with
  | true => simp [rank_eq_zero_iff.2 h]
  | false =>
      rw [rank_of_not_exact h]
      cases Plural.Category.ofName? a.key with
      | none => simp
      | some c =>
          have hlt := List.idxOf_lt_length_iff.2 (Plural.Category.mem_all c)
          simpa using Nat.ne_of_lt hlt

/-- A variant that is neither an exact match nor without a category is that of a category. -/
theorem exists_category (ha : a.isExact = false) (hname : Plural.isUnnamed a = false) :
    ∃ c : Plural.Category, a.key = c.name ∧ a.rank = Plural.Category.all.idxOf c + 1 := by
  cases hc : Plural.Category.ofName? a.key with
  | none =>
      rw [Plural.isUnnamed, ha, hc] at hname
      cases hname
  | some c =>
      have hkey := (Plural.Category.name_of_ofName? hc).symm
      exact ⟨c, hkey, rank_of_name hkey⟩

/-- Variants that may each be listed before the other have the same key, unless they are exact
matches. -/
theorem Precedes.key_eq (hab : a.Precedes b) (hba : b.Precedes a) (ha : a.isExact = false) :
    a.key = b.key := by
  have hrank : a.rank = b.rank := by
    rcases hab with hab | hab <;> rcases hba with hba | hba <;> omega
  have hb : b.isExact = false := by
    rw [← Bool.not_eq_true, ← rank_eq_zero_iff, ← hrank, rank_eq_zero_iff, ha]
    exact Bool.false_ne_true
  have hunnamed : Plural.isUnnamed a = Plural.isUnnamed b := by
    rw [Bool.eq_iff_iff, ← rank_eq_last_iff, hrank, rank_eq_last_iff]
  cases hua : Plural.isUnnamed a with
  | true =>
      have hle := (hab.resolve_left (by omega)).2 hua
      have hge := (hba.resolve_left (by omega)).2 (hunnamed ▸ hua)
      exact String.le_antisymm hle hge
  | false =>
      obtain ⟨c, hc, hrankc⟩ := exists_category ha hua
      obtain ⟨d, hd, hrankd⟩ := exists_category hb (hunnamed ▸ hua)
      rw [hrank, hrankd] at hrankc
      obtain rfl := (List.idxOf_inj (Plural.Category.mem_all d)).1 (Nat.succ.inj hrankc)
      rw [hc, hd]

/-- What may be listed before a variant may be listed before what comes after it. -/
theorem Precedes.trans (hab : a.Precedes b) (hbc : b.Precedes c) : a.Precedes c := by
  by_cases hlt : a.rank < c.rank
  · exact .inl hlt
  · have hab' := hab.resolve_left (by rcases hbc with hbc | hbc <;> omega)
    have hbc' := hbc.resolve_left (by omega)
    refine .inr ⟨hab'.1.trans hbc'.1, fun hua => ?_⟩
    have hub : Plural.isUnnamed b = true := by
      rwa [← rank_eq_last_iff, ← hab'.1, rank_eq_last_iff]
    exact String.le_trans (hab'.2 hua) (hbc'.2 hub)

/-- Of two variants one may be listed before the other. -/
theorem Precedes.total (a b : Branch) : a.Precedes b ∨ b.Precedes a := by
  rcases Nat.lt_trichotomy a.rank b.rank with h | h | h
  · exact .inl (.inl h)
  · rcases String.le_total a.key b.key with hle | hle
    · exact .inl (.inr ⟨h, fun _ => hle⟩)
    · exact .inr (.inr ⟨h.symm, fun _ => hle⟩)
  · exact .inr (.inl h)

/-- Exact matches are listed before all other variants. -/
theorem Precedes.isExact (hab : a.Precedes b) (hb : b.isExact = true) : a.isExact = true := by
  rw [← rank_eq_zero_iff] at hb ⊢
  rcases hab with hab | hab <;> omega

end Branch

/-- Where those of a kind come first, a list consists of them and of the others. -/
theorem filter_append_filter_not {p : Branch → Bool} {branches : List Branch}
    (h : branches.Pairwise fun a b => p b = true → p a = true) :
    branches.filter p ++ branches.filter (fun b => !p b) = branches := by
  induction h with
  | nil => rfl
  | @cons a branches ha _ ih =>
      cases hp : p a with
      | true => simp [hp, ih]
      | false =>
          have hnone : ∀ b ∈ branches, p b = false := by
            intro b hb
            rw [← Bool.not_eq_true]
            intro hpb
            rw [ha b hb hpb] at hp
            cases hp
          have hfirst : branches.filter p = [] := List.filter_eq_nil_iff.2 (by simpa using hnone)
          have hothers : branches.filter (fun b => !p b) = branches :=
            List.filter_eq_self.2 (by simpa using hnone)
          simp [hp, hfirst, hothers]

/-- Sorted variants with distinct keys are told by what they are and by the order of the exact
matches. -/
theorem eq_of_sorted {first second : List Branch} (hkeys : (first.map (·.key)).Nodup)
    (hperm : first.Perm second) (hfirst : first.Pairwise Branch.Precedes)
    (hsecond : second.Pairwise Branch.Precedes)
    (hexact : first.filter Branch.isExact = second.filter Branch.isExact) : first = second := by
  have hothers : first.filter (fun b => !b.isExact) = second.filter (fun b => !b.isExact) := by
    refine (hperm.filter _).eq_of_pairwise ?_ (hfirst.filter _) (hsecond.filter _)
    intro a b ha hb hab hba
    have ha' := List.mem_filter.1 ha
    have hb' := hperm.mem_iff.2 (List.mem_filter.1 hb).1
    refine List.inj_on_of_nodup_map hkeys ha'.1 hb' (hab.key_eq hba ?_)
    simpa using ha'.2
  rw [← filter_append_filter_not (hfirst.imp Branch.Precedes.isExact),
    ← filter_append_filter_not (hsecond.imp Branch.Precedes.isExact), hexact, hothers]

/-! ### Adding variants one at a time -/

namespace Plural

variable {required : List Category} {variants : List Branch}

/-- The variants with one of the category at the end, unless there is one. -/
def addMissing (text : String) (variants : List Branch) (c : Category) : List Branch :=
  if c.name ∈ variants.map (·.key) then variants else variants ++ [⟨c.name, text⟩]

/-- The variants with `other`, if there are any: a missing `other` has the text of the first variant
that is no exact match, or else of the first of all. -/
def addOther (variants : List Branch) : List Branch :=
  match (variants.find? fun b => !b.isExact).or variants.head? with
  | none => variants
  | some b => addMissing b.text variants .other

/-- The variants with those of the required categories: a missing one has the text of `other`. -/
def addRequired (required : List Category) (variants : List Branch) : List Branch :=
  required.foldl (addMissing ((textOf? variants Category.other.name).getD "")) variants

/-- The category that was added is found, and no other key is touched. -/
theorem branchFor_addMissing (text : String) (variants : List Branch) (c : Category)
    (key : String) :
    branchFor key (addMissing text variants c) =
      (branchFor key variants).or (if key = c.name then some ⟨key, text⟩ else none) := by
  rw [addMissing]
  split
  · next h =>
    split
    · next hkey =>
      subst hkey
      obtain ⟨b, hb⟩ := exists_branchFor h
      rw [hb, Option.some_or]
    · rw [Option.or_none]
  · rw [branchFor_append]
    congr 1
    by_cases hkey : c.name = key
    · simp [branchFor, hkey]
    · simp [branchFor, hkey, Ne.symm hkey]

/-- The added categories are found, and no other key is touched. -/
theorem branchFor_foldl_addMissing (text : String) (required : List Category)
    (variants : List Branch) (key : String) :
    branchFor key (required.foldl (addMissing text) variants) =
      (branchFor key variants).or
        (if key ∈ required.map Category.name then some ⟨key, text⟩ else none) := by
  induction required generalizing variants with
  | nil => simp
  | cons c required ih =>
      rw [List.foldl_cons, ih, branchFor_addMissing, Option.or_assoc, List.map_cons]
      congr 1
      by_cases hkey : key = c.name <;> simp [hkey]

/-- Adding a category repeats no key and adds no exact match. -/
theorem addMissing_spec (text : String) {first : List Branch} (c : Category)
    (h : (first.map (·.key)).Nodup ∧ first.filter Branch.isExact = variants) :
    ((addMissing text first c).map (·.key)).Nodup ∧
      (addMissing text first c).filter Branch.isExact = variants := by
  rw [addMissing]
  split
  · exact h
  · next hmissing =>
    have hname : (⟨c.name, text⟩ : Branch).isExact = false :=
      isExact_eq_false (Category.ofName?_name c)
    refine ⟨?_, by rw [List.filter_append, h.2]; simp [hname]⟩
    rw [List.map_append, List.nodup_append]
    refine ⟨h.1, List.nodup_singleton _, ?_⟩
    intro key hkey other hother
    obtain rfl := List.mem_singleton.1 hother
    rintro rfl
    exact hmissing hkey

/-- Adding `other` repeats no key and adds no exact match. -/
theorem addOther_spec {first : List Branch}
    (h : (first.map (·.key)).Nodup ∧ first.filter Branch.isExact = variants) :
    ((addOther first).map (·.key)).Nodup ∧ (addOther first).filter Branch.isExact = variants := by
  rw [addOther]
  split
  · exact h
  · exact addMissing_spec _ _ h

/-- Adding the required categories repeats no key and adds no exact match. -/
theorem addRequired_spec (required : List Category) {first : List Branch}
    (h : (first.map (·.key)).Nodup ∧ first.filter Branch.isExact = variants) :
    ((addRequired required first).map (·.key)).Nodup ∧
      (addRequired required first).filter Branch.isExact = variants := by
  rw [addRequired]
  generalize (textOf? first Category.other.name).getD "" = text
  induction required generalizing first with
  | nil => exact h
  | cons c required ih => exact ih (addMissing_spec text c h)

/-- Under a key, the variants with what is missing have the first variant, or else one that is
added. -/
theorem branchFor_addRequired (hother : .other ∈ required) (variants : List Branch)
    (key : String) :
    branchFor key (addRequired required (addOther variants)) =
      (branchFor key variants).or (added? required variants key) := by
  have hfirst : ∀ key, branchFor key (addOther variants) = (branchFor key variants).or
      (if key = Category.other.name then
        ((variants.find? fun b => !b.isExact).or variants.head?).map (fun b => ⟨key, b.text⟩)
      else none) := by
    intro key
    rw [addOther]
    cases (variants.find? fun b => !b.isExact).or variants.head? with
    | none => simp
    | some b => exact branchFor_addMissing b.text variants .other key
  have htext : (textOf? (addOther variants) Category.other.name).getD "" = fallback variants := by
    rw [textOf?_eq, hfirst, if_pos rfl, fallback, textOf?_eq, Option.map_or, Option.map_map]
    rfl
  rw [addRequired, branchFor_foldl_addMissing, htext, hfirst, Option.or_assoc, added?]
  -- Only `other` may have been added before, with the text that it would get now.
  by_cases hkey : key = Category.other.name
  · subst hkey
    have hmem : Category.other.name ∈ required.map Category.name := mem_required.2 hother
    rw [if_pos rfl, if_pos hmem]
    cases hfound : branchFor Category.other.name variants with
    | some b => rfl
    | none =>
        rw [Option.none_or, Option.none_or, fallback, textOf?_eq, hfound]
        cases (variants.find? fun b => !b.isExact).or variants.head? <;> rfl
  · rw [if_neg hkey, Option.none_or]

end Plural

/-- Lists with distinct keys in which the same branch is found under each key have the same
branches. -/
theorem perm_of_branchFor {first second : List Branch} (hfirst : (first.map (·.key)).Nodup)
    (hsecond : (second.map (·.key)).Nodup)
    (h : ∀ key, branchFor key first = branchFor key second) : first.Perm second := by
  have hmem : ∀ {branches : List Branch}, (branches.map (·.key)).Nodup →
      ∀ b, b ∈ branches ↔ branchFor b.key branches = some b := by
    intro branches hkeys b
    refine ⟨fun hb => ?_, List.mem_of_find?_eq_some⟩
    rw [← firstPerKey_eq_self hkeys] at hb
    exact branchFor_of_mem_firstPerKey hb
  rw [List.perm_ext_iff_of_nodup (hfirst.of_map _) (hsecond.of_map _)]
  intro b
  rw [hmem hfirst, hmem hsecond, h]

/-- Variants are sorted stably: those of a kind that stand in order already keep their order. -/
theorem sorted_mergeSort (branches : List Branch) :
    (branches.mergeSort fun a b => a.Precedes b).Pairwise Branch.Precedes ∧
      ∀ p : Branch → Bool, (branches.filter p).Pairwise Branch.Precedes →
        (branches.mergeSort fun a b => a.Precedes b).filter p = branches.filter p := by
  have htrans : ∀ a b c : Branch, decide (a.Precedes b) = true → decide (b.Precedes c) = true →
      decide (a.Precedes c) = true := by
    intro a b c hab hbc
    exact decide_eq_true ((of_decide_eq_true hab).trans (of_decide_eq_true hbc))
  have htotal : ∀ a b : Branch, (decide (a.Precedes b) || decide (b.Precedes a)) = true := by
    intro a b
    simpa only [Bool.or_eq_true, decide_eq_true_iff] using Branch.Precedes.total a b
  refine ⟨(List.pairwise_mergeSort htrans htotal branches).imp of_decide_eq_true, fun p hp => ?_⟩
  have hsub := (List.sublist_mergeSort htrans htotal (hp.imp decide_eq_true)
    (List.filter_sublist (l := branches))).filter p
  rw [List.filter_filter] at hsub
  simp only [Bool.and_self] at hsub
  exact (hsub.eq_of_length ((List.mergeSort_perm branches _).filter p).length_eq.symm).symm

namespace Plural

variable {required : List Category} {variants : List Branch}

/-- Completed variants are the first ones of each key with what is missing, sorted stably. -/
theorem completeFor_eq_mergeSort (hother : .other ∈ required) (variants : List Branch) :
    completeFor required variants =
      (addRequired required (addOther (firstPerKey variants))).mergeSort
        fun a b => a.Precedes b := by
  have hfirst : ((firstPerKey variants).map (·.key)).Nodup :=
    nodup_keys fun key => ⟨_, branchesWith_firstPerKey key variants⟩
  obtain ⟨hkeys, hexact⟩ := addRequired_spec required (addOther_spec ⟨hfirst, rfl⟩)
  obtain ⟨hsorted, hstable⟩ :=
    sorted_mergeSort (addRequired required (addOther (firstPerKey variants)))
  have hperm : (completeFor required variants).Perm
      (addRequired required (addOther (firstPerKey variants))) := by
    refine perm_of_branchFor (nodup_completeFor _ _) hkeys fun key => ?_
    rw [branchFor_completeFor, branchFor_addRequired hother, branchFor_firstPerKey, added?, added?,
      fallback_firstPerKey]
  refine eq_of_sorted (nodup_completeFor _ _) (hperm.trans (List.mergeSort_perm _ _).symm)
    (sorted_completeFor _ _) hsorted ?_
  -- Exact matches are all listed alike, so sorting does not move them past each other.
  have hequal : ((firstPerKey variants).filter Branch.isExact).Pairwise Branch.Precedes := by
    rw [filter_firstPerKey fun _ _ => Branch.isExact_congr, ← filter_isExact_completeFor required]
    exact (sorted_completeFor required variants).filter _
  rw [hstable Branch.isExact (hexact ▸ hequal), hexact, filter_isExact_completeFor,
    filter_firstPerKey fun _ _ => Branch.isExact_congr]

/-! ### Completed variants and plans -/

/-- The variants are as completing makes them. -/
structure Completed (required : List Category) (variants : List Branch) : Prop where
  /-- No key is repeated. -/
  distinct : (variants.map (·.key)).Nodup
  /-- No required category is missing. -/
  covers : ∀ c ∈ required, c.name ∈ variants.map (·.key)
  /-- Exact matches come first, then categories in canonical order, then names in alphabetical
  order. -/
  sorted : variants.Pairwise Branch.Precedes

/-- Completing makes completed variants. -/
theorem completed_completeFor (required : List Category) (variants : List Branch) :
    Completed required (completeFor required variants) where
  distinct := nodup_completeFor required variants
  covers := fun _ hc => mem_keys_completeFor.2 (.inr (List.mem_map_of_mem hc))
  sorted := sorted_completeFor required variants

/-- A category that is there is not added. -/
theorem addMissing_of_mem {c : Category} (text : String) (h : c.name ∈ variants.map (·.key)) :
    addMissing text variants c = variants :=
  if_pos h

/-- Nothing is added to variants that have all categories. -/
theorem addRequired_of_covers (h : ∀ c ∈ required, c.name ∈ variants.map (·.key)) :
    addRequired required variants = variants := by
  rw [addRequired]
  generalize (textOf? variants Category.other.name).getD "" = text
  induction required with
  | nil => rfl
  | cons c required ih =>
      rw [List.forall_mem_cons] at h
      rw [List.foldl_cons, addMissing_of_mem text h.1, ih h.2]

/-- Completing leaves completed variants as they are, and no others. -/
theorem completeFor_eq_self_iff (hother : .other ∈ required) :
    completeFor required variants = variants ↔ Completed required variants := by
  refine ⟨fun h => h ▸ completed_completeFor required variants, fun h => ?_⟩
  have haddOther : addOther variants = variants := by
    rw [addOther]
    split
    · rfl
    · exact addMissing_of_mem _ (h.covers _ hother)
  rw [completeFor_eq_mergeSort hother, firstPerKey_eq_self h.distinct, haddOther,
    addRequired_of_covers h.covers, List.mergeSort_of_pairwise (h.sorted.imp decide_eq_true)]

/-- A part of completed variants is completed if it has the required categories. -/
theorem Completed.filter {p : Branch → Bool} (h : Completed required variants)
    (hp : ∀ b ∈ variants, b.key ∈ required.map Category.name → p b = true) :
    Completed required (variants.filter p) where
  distinct := h.distinct.sublist (List.filter_sublist.map _)
  covers := by
    intro c hc
    obtain ⟨b, hb, hkey⟩ := List.mem_map.1 (h.covers c hc)
    refine List.mem_map.2 ⟨b, List.mem_filter.2 ⟨hb, hp b hb ?_⟩, hkey⟩
    rw [hkey]
    exact List.mem_map_of_mem hc
  sorted := h.sorted.filter p

/-- A translation has to provide the variant: it is an exact match, or its category is required. -/
def isNeeded (required : List Category) (b : Branch) : Bool :=
  b.isExact || decide (b.key ∈ required.map Category.name)

/-- The variant of a category is needed exactly if the category is required. -/
theorem filter_isNeeded_variantFor? (required : List Category) (variants : List Branch)
    (c : Category) :
    (variantFor? variants required c).filter (isNeeded required) =
      if c ∈ required then some ⟨c.name, (textOf? variants c.name).getD (fallback variants)⟩
      else none := by
  have hneeded : ∀ text, isNeeded required ⟨c.name, text⟩ = decide (c ∈ required) := by
    intro text
    rw [isNeeded, isExact_eq_false (Category.ofName?_name c), Bool.false_or]
    exact decide_eq_decide.2 mem_required
  rw [variantFor?]
  cases textOf? variants c.name with
  | some text => simp [Option.filter_some, hneeded]
  | none => by_cases hc : c ∈ required <;> simp [hc, Option.filter_some, hneeded]

/-- A plan lists those of the completed variants that are needed, if the required categories are in
canonical order. -/
theorem planFor_eq_filter (hrequired : Category.all.filter (· ∈ required) = required)
    (variants : List Branch) :
    planFor required variants = (completeFor required variants).filter (isNeeded required) := by
  have hexact : ((firstPerKey variants).filter Branch.isExact).filter (isNeeded required) =
      (firstPerKey variants).filter Branch.isExact := by
    refine List.filter_eq_self.2 fun b hb => ?_
    rw [isNeeded, (List.mem_filter.1 hb).2, Bool.true_or]
  have hcategories :
      (Category.all.filterMap (variantFor? (firstPerKey variants) required)).filter
        (isNeeded required) = required.map fun c =>
          ⟨c.name, (textOf? (firstPerKey variants) c.name).getD
            (fallback (firstPerKey variants))⟩ := by
    rw [List.filter_filterMap, ← List.filterMap_eq_map']
    simp only [filter_isNeeded_variantFor?]
    conv => rhs; rw [← hrequired, List.filterMap_filter]
    simp only [decide_eq_true_eq]
  have hunnamed : (((firstPerKey variants).filter isUnnamed).mergeSort
      fun a b => a.key ≤ b.key).filter (isNeeded required) = [] := by
    refine List.filter_eq_nil_iff.2 fun b hb hneeded => ?_
    have hname := (List.mem_filter.1 (List.mem_mergeSort.1 hb)).2
    rw [isUnnamed, Bool.and_eq_true, Bool.not_eq_true', Option.isNone_iff_eq_none] at hname
    rw [isNeeded, hname.1, Bool.false_or, decide_eq_true_eq] at hneeded
    obtain ⟨c, -, hc⟩ := List.mem_map.1 hneeded
    rw [← hc, Category.ofName?_name] at hname
    cases hname.2
  rw [planFor, completeFor, List.filter_append, List.filter_append, hexact, hcategories, hunnamed,
    List.append_nil]

end Plural

/-- Every language requires its categories in canonical order. -/
theorem Plural.filter_mem_required (tag : String) (kind : Kind) :
    Category.all.filter (· ∈ required tag kind) = required tag kind := by
  rw [required, Forms.categories]
  refine List.filter_congr fun c hc => ?_
  simp [hc]

/-- A plan lists those of the completed variants that are needed, in the same order and with the
same texts. Completing changes neither a plan nor completed variants. -/
theorem Plural.plan_complete (tag : String) (kind : Kind) (variants : List Branch) :
    plan tag kind variants =
        (complete tag kind variants).filter (isNeeded (required tag kind)) ∧
      complete tag kind (plan tag kind variants) = plan tag kind variants ∧
      complete tag kind (complete tag kind variants) = complete tag kind variants := by
  have hplan := planFor_eq_filter (filter_mem_required tag kind) variants
  have hcompleted := completed_completeFor (required tag kind) variants
  refine ⟨hplan, ?_, (completeFor_eq_self_iff (other_mem_required tag kind)).2 hcompleted⟩
  refine (completeFor_eq_self_iff (other_mem_required tag kind)).2 ?_
  rw [plan, hplan]
  refine hcompleted.filter fun b _ hkey => ?_
  rw [isNeeded, decide_eq_true hkey, Bool.or_true]

end MessageFormat
