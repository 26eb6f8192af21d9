import Mathlib.Data.List.Nodup
import MessageFormat.Proofs.Merging
import MessageFormat.Proofs.Printing
import MessageFormat.Rebuild.Rebuild

/-!
# Completed plurals

Which variants a plural of a rebuilt message is written with when plurals are completed for a
language. `Plural.Completes` says it key by key: which keys there are, where the text of each comes
from, and in which order they stand. Completing looks at its variants only through the first one of
each key, so merging and completing together are `Plural.completeFor` of one list, that of the
carried exact matches followed by the given variants (`Options.complete_mergeVariants`).
-/

namespace MessageFormat

/-! ### Keys -/

variable {branches : List Branch} {key : String}

/-- The first branch with a key is found by looking at the branches with it. -/
theorem branchFor_of_branchesWith {found : Option Branch}
    (h : branchesWith key branches = found.toList) : branchFor key branches = found := by
  rw [branchFor, ← List.head?_filter]
  show (branchesWith key branches).head? = found
  rw [h]
  cases found <;> rfl

/-- A key is there exactly if a branch is found under it. -/
theorem branchFor_eq_none_iff : branchFor key branches = none ↔ key ∉ branches.map (·.key) := by
  rw [branchFor, List.find?_eq_none]
  simp only [beq_iff_eq, List.mem_map, not_exists, not_and]

/-- Where there is no more than one branch with each key, the keys are distinct. -/
theorem nodup_keys (h : ∀ key, ∃ found : Option Branch, branchesWith key branches = found.toList) :
    (branches.map (·.key)).Nodup := by
  rw [List.nodup_iff_count_le_one]
  intro key
  obtain ⟨found, hfound⟩ := h key
  have hcount : (branches.map (·.key)).count key = (branchesWith key branches).length := by
    rw [List.count, List.countP_map, List.countP_eq_length_filter]
    rfl
  rw [hcount, hfound]
  cases found <;> simp

/-- The first branches of two lists are those of the first and those of the second with new keys. -/
theorem firstPerKey_append (first second : List Branch) :
    firstPerKey (first ++ second) =
      firstPerKey first ++
        (firstPerKey second).filter fun b => decide (b.key ∉ first.map (·.key)) := by
  induction first with
  | nil => simp [firstPerKey]
  | cons b first ih =>
      rw [List.cons_append, firstPerKey, firstPerKey, ih, List.filter_append, List.filter_filter,
        List.cons_append]
      congr 2
      refine List.filter_congr fun c _ => ?_
      by_cases hc : c.key = b.key <;> simp [hc]

/-- The first branches have the same keys. -/
theorem mem_keys_firstPerKey :
    key ∈ (firstPerKey branches).map (·.key) ↔ key ∈ branches.map (·.key) := by
  rw [← not_iff_not, ← branchFor_eq_none_iff, ← branchFor_eq_none_iff, branchFor_firstPerKey]

/-- Branches with distinct keys are all kept. -/
theorem firstPerKey_eq_self (h : (branches.map (·.key)).Nodup) :
    firstPerKey branches = branches := by
  induction branches with
  | nil => rfl
  | cons b branches ih =>
      rw [List.map_cons, List.nodup_cons] at h
      rw [firstPerKey, ih h.2, List.filter_eq_self.2]
      intro c hc
      refine bne_iff_ne.2 fun heq => h.1 ?_
      rw [← heq]
      exact List.mem_map_of_mem hc

/-- Keeping the first branches once is enough. -/
theorem firstPerKey_firstPerKey (branches : List Branch) :
    firstPerKey (firstPerKey branches) = firstPerKey branches :=
  firstPerKey_eq_self (nodup_keys fun key => ⟨_, branchesWith_firstPerKey key branches⟩)

/-- A part of the first branches that is chosen by keys has the first branches of that part. -/
theorem filter_firstPerKey {p : Branch → Bool} (hp : ∀ b c : Branch, b.key = c.key → p b = p c)
    (branches : List Branch) :
    (firstPerKey branches).filter p = firstPerKey (branches.filter p) := by
  induction branches with
  | nil => rfl
  | cons b branches ih =>
      rw [firstPerKey, List.filter_cons, List.filter_cons]
      split
      · rw [firstPerKey, ← ih, List.filter_comm]
      · next hb =>
        rw [← ih, List.filter_filter]
        refine List.filter_congr fun c _ => ?_
        by_cases hc : c.key = b.key
        · rw [hp c b hc, Bool.eq_false_iff.2 hb, Bool.false_and]
        · simp [hc]

/-- The keys of the first branches are the keys without repetitions. -/
theorem keys_firstPerKey_eq_eraseDups (branches : List Branch) :
    (firstPerKey branches).map (·.key) = (branches.map (·.key)).eraseDups := by
  match branches with
  | [] => rfl
  | b :: branches =>
      have hkeys : ∀ c d : Branch, c.key = d.key → (c.key != b.key) = (d.key != b.key) := by
        intro c d h
        rw [h]
      have hrest := keys_firstPerKey_eq_eraseDups (branches.filter fun c => c.key != b.key)
      rw [firstPerKey, filter_firstPerKey hkeys, List.map_cons, List.map_cons, List.eraseDups_cons,
        hrest, List.filter_map]
      rfl
  termination_by branches.length
  decreasing_by exact Nat.lt_succ_of_le (List.length_filter_le _ _)

/-- Whether a branch is an exact match depends on its key. -/
theorem Branch.isExact_congr {b c : Branch} (h : b.key = c.key) : b.isExact = c.isExact := by
  rw [isExact, isExact, h]

/-! ### Order -/

/-- Where a variant is listed: exact matches come first, then the categories in canonical order,
then other names. -/
def Branch.rank (b : Branch) : Nat :=
  if b.isExact then 0
  else
    match Plural.Category.ofName? b.key with
    | some c => Plural.Category.all.idxOf c + 1
    | none => Plural.Category.all.length + 1

/-- A variant may be listed before another; names of no category stand in alphabetical order. -/
def Branch.Precedes (a b : Branch) : Prop :=
  a.rank < b.rank ∨ a.rank = b.rank ∧ (Plural.isUnnamed a = true → a.key ≤ b.key)

/-- The variant of a category has the rank of the category. -/
theorem Branch.rank_of_name {b : Branch} {c : Plural.Category} (h : b.key = c.name) :
    b.rank = Plural.Category.all.idxOf c + 1 := by
  have hname : Plural.Category.ofName? b.key = some c := by rw [h, Plural.Category.ofName?_name]
  rw [rank, Plural.isExact_eq_false hname, hname]
  rfl

/-- Branches can be sorted by their keys. -/
theorem pairwise_mergeSort_key (branches : List Branch) :
    (branches.mergeSort fun a b => a.key ≤ b.key).Pairwise fun a b => a.key ≤ b.key := by
  have htrans : ∀ a b c : Branch, decide (a.key ≤ b.key) = true → decide (b.key ≤ c.key) = true →
      decide (a.key ≤ c.key) = true := by
    intro a b c hab hbc
    exact decide_eq_true (String.le_trans (of_decide_eq_true hab) (of_decide_eq_true hbc))
  have htotal : ∀ a b : Branch, (decide (a.key ≤ b.key) || decide (b.key ≤ a.key)) = true := by
    intro a b
    simpa only [Bool.or_eq_true, decide_eq_true_iff] using String.le_total a.key b.key
  exact (List.pairwise_mergeSort htrans htotal branches).imp of_decide_eq_true

/-- Completed variants are listed in order. -/
theorem Plural.sorted_completeFor (required : List Category) (variants : List Branch) :
    (completeFor required variants).Pairwise Branch.Precedes := by
  have hexact : ∀ a ∈ (firstPerKey variants).filter Branch.isExact, a.rank = 0 := by
    intro a ha
    rw [Branch.rank, (List.mem_filter.1 ha).2]
    rfl
  have hcategory : ∀ a ∈ Category.all.filterMap (variantFor? (firstPerKey variants) required),
      0 < a.rank ∧ a.rank ≤ Category.all.length := by
    intro a ha
    obtain ⟨c, hc, h⟩ := List.mem_filterMap.1 ha
    rw [Branch.rank_of_name (isAdded_of_variantFor? h).1]
    exact ⟨Nat.succ_pos _, List.idxOf_lt_length_iff.2 hc⟩
  have hunnamed : ∀ a ∈ ((firstPerKey variants).filter isUnnamed).mergeSort
      (fun a b => a.key ≤ b.key), a.rank = Category.all.length + 1 := by
    intro a ha
    rw [List.mem_mergeSort] at ha
    have h := (List.mem_filter.1 ha).2
    rw [isUnnamed, Bool.and_eq_true, Bool.not_eq_true', Option.isNone_iff_eq_none] at h
    rw [Branch.rank, h.1, h.2]
    rfl
  rw [completeFor, List.pairwise_append, List.pairwise_append]
  refine ⟨⟨?_, ?_, ?_⟩, ?_, ?_⟩
  · rw [List.pairwise_iff_getElem]
    intro j k hj hk _
    have ha := List.getElem_mem hj
    refine .inr ⟨by rw [hexact _ ha, hexact _ (List.getElem_mem hk)], fun h => ?_⟩
    rw [isUnnamed, (List.mem_filter.1 ha).2] at h
    cases h
  · rw [List.pairwise_filterMap]
    have hall : Category.all.Pairwise fun c c' => Category.all.idxOf c < Category.all.idxOf c' := by
      decide
    refine hall.imp fun hlt a ha b hb => .inl ?_
    rw [Branch.rank_of_name (isAdded_of_variantFor? ha).1,
      Branch.rank_of_name (isAdded_of_variantFor? hb).1]
    exact Nat.succ_lt_succ hlt
  · intro a ha b hb
    exact .inl (by rw [hexact a ha]; exact (hcategory b hb).1)
  · refine (pairwise_mergeSort_key _).imp_of_mem fun ha hb hab => .inr ⟨?_, fun _ => hab⟩
    rw [hunnamed _ ha, hunnamed _ hb]
  · intro a ha b hb
    refine .inl ?_
    rw [hunnamed b hb]
    rcases List.mem_append.1 ha with ha | ha
    · rw [hexact a ha]
      exact Nat.succ_pos _
    · exact Nat.lt_succ_of_le (hcategory a ha).2

/-! ### Completed variants -/

namespace Plural

variable {required : List Category} {variants : List Branch}

/-- Under a key, the completed variants have the first variant, or else one that is added. -/
theorem branchFor_completeFor (required : List Category) (variants : List Branch) (key : String) :
    branchFor key (completeFor required variants) =
      (branchFor key variants).or (added? required variants key) :=
  branchFor_of_branchesWith (branchesWith_completeFor required variants key)

/-- Completing looks at the first variant of each key only. -/
theorem completeFor_congr {other : List Branch} (h : firstPerKey variants = firstPerKey other) :
    completeFor required variants = completeFor required other := by
  rw [completeFor, completeFor, h]

/-- The keys of completed variants are distinct. -/
theorem nodup_completeFor (required : List Category) (variants : List Branch) :
    ((completeFor required variants).map (·.key)).Nodup :=
  nodup_keys fun key => ⟨_, branchesWith_completeFor required variants key⟩

/-- The keys of completed variants are those of the variants and of the required categories. -/
theorem mem_keys_completeFor :
    key ∈ (completeFor required variants).map (·.key) ↔
      key ∈ variants.map (·.key) ∨ key ∈ required.map Category.name := by
  rw [← not_iff_not, ← branchFor_eq_none_iff, branchFor_completeFor, Option.or_eq_none_iff,
    branchFor_eq_none_iff, added?, not_or]
  by_cases h : key ∈ required.map Category.name <;> simp [h]

/-- Variants keep the text that comes first for their key. -/
theorem textOf?_completeFor (h : key ∈ variants.map (·.key)) :
    textOf? (completeFor required variants) key = textOf? variants key := by
  obtain ⟨b, hb⟩ := exists_branchFor h
  rw [textOf?_eq, textOf?_eq, branchFor_completeFor, hb]
  rfl

/-- A required category without a variant gets the text for missing categories. -/
theorem textOf?_completeFor_missing {c : Category} (hc : c ∈ required)
    (h : c.name ∉ variants.map (·.key)) :
    textOf? (completeFor required variants) c.name = some (fallback variants) := by
  rw [textOf?_eq, branchFor_completeFor, branchFor_eq_none_iff.2 h, added?,
    if_pos (mem_required.2 hc)]
  rfl

/-- The text for missing categories is that of `other`, which is there or is missing itself. -/
theorem textOf?_completeFor_other (hother : .other ∈ required) :
    textOf? (completeFor required variants) Category.other.name = some (fallback variants) := by
  by_cases h : Category.other.name ∈ variants.map (·.key)
  · obtain ⟨b, hb⟩ := exists_branchFor h
    rw [textOf?_completeFor h, fallback, textOf?_eq, hb]
    rfl
  · exact textOf?_completeFor_missing hother h

/-- Of the completed variants, those that are exact matches were there before. -/
theorem filter_isExact_completeFor (required : List Category) (variants : List Branch) :
    (completeFor required variants).filter Branch.isExact =
      firstPerKey (variants.filter Branch.isExact) := by
  have hcategories : (Category.all.filterMap (variantFor? (firstPerKey variants) required)).filter
      Branch.isExact = [] := by
    refine List.filter_eq_nil_iff.2 fun b hb => ?_
    obtain ⟨c, -, hc⟩ := List.mem_filterMap.1 hb
    have hname : Category.ofName? b.key = some c := by
      rw [(isAdded_of_variantFor? hc).1, Category.ofName?_name]
    rw [isExact_eq_false hname]
    exact Bool.false_ne_true
  have hunnamed : (((firstPerKey variants).filter isUnnamed).mergeSort
      fun a b => a.key ≤ b.key).filter Branch.isExact = [] := by
    refine List.filter_eq_nil_iff.2 fun b hb hexact => ?_
    have h := (List.mem_filter.1 (List.mem_mergeSort.1 hb)).2
    rw [isUnnamed, hexact] at h
    cases h
  rw [completeFor, List.filter_append, List.filter_append, hcategories, hunnamed, List.append_nil,
    List.append_nil, List.filter_filter, ← filter_firstPerKey fun _ _ => Branch.isExact_congr]
  simp only [Bool.and_self]

end Plural

/-! ### Carried exact matches -/

/-- The exact matches of the source that the given variants lack, if they are to be kept. -/
def carriedMatches (keep : Bool) (source given : List Branch) : List Branch :=
  if keep then source.filter fun b => b.isExact && decide (b.key ∉ given.map (·.key)) else []

variable {keep : Bool} {source given : List Branch}

/-- What is carried is an exact match of the source that the given variants lack. -/
theorem mem_carriedMatches {b : Branch} :
    b ∈ carriedMatches keep source given ↔
      keep = true ∧ b ∈ source ∧ b.isExact = true ∧ b.key ∉ given.map (·.key) := by
  cases keep <;> simp [carriedMatches]

/-- What is carried under a key is the first branch of the source with it. -/
theorem branchFor_carriedMatches (hkeep : keep = true) {b : Branch} (hexact : b.isExact = true)
    (hgiven : b.key ∉ given.map (·.key)) :
    branchFor b.key (carriedMatches keep source given) = branchFor b.key source := by
  rw [carriedMatches, if_pos hkeep, branchFor, branchFor, List.find?_filter]
  congr 1
  funext c
  cases hc : c.key == b.key with
  | false => simp
  | true =>
      rw [beq_iff_eq] at hc
      rw [Branch.isExact_congr hc, hexact, hc]
      simpa using hgiven

/-- A branch is found in the first list or else in the second. -/
theorem branchFor_append (key : String) (first second : List Branch) :
    branchFor key (first ++ second) = (branchFor key first).or (branchFor key second) :=
  List.find?_append

/-- Nothing is carried under the name of a category. -/
theorem Plural.not_mem_keys_of_name {c : Category} (h : c.name ∉ given.map (·.key)) :
    c.name ∉ (carriedMatches keep source given ++ given).map (·.key) := by
  rw [List.map_append, List.mem_append, not_or]
  refine ⟨fun hmem => ?_, h⟩
  obtain ⟨b, hb, hkey⟩ := List.mem_map.1 hmem
  have hname : Category.ofName? b.key = some c := by rw [hkey, Category.ofName?_name]
  have hexact := (mem_carriedMatches.1 hb).2.2.1
  rw [isExact_eq_false hname] at hexact
  cases hexact

/-- Without a given `other`, the text for missing categories is that of the first given variant that
is no exact match, or else of the first of all. -/
theorem Plural.fallback_carriedMatches (h : Category.other.name ∉ given.map (·.key)) :
    fallback (carriedMatches keep source given ++ given) =
      (((given.find? fun b => !b.isExact).or
        (carriedMatches keep source given ++ given).head?).map (·.text)).getD "" := by
  have hcarried : (carriedMatches keep source given).find? (fun b => !b.isExact) = none := by
    rw [List.find?_eq_none]
    intro b hb
    rw [(mem_carriedMatches.1 hb).2.2.1]
    exact Bool.false_ne_true
  rw [fallback, textOf?_eq, branchFor_eq_none_iff.2 (not_mem_keys_of_name h), List.find?_append,
    hcarried, Option.none_or]
  rfl

/-- Nothing is carried under a key that the given variants have. -/
theorem branchFor_carriedMatches_eq_none (h : key ∈ given.map (·.key)) :
    branchFor key (carriedMatches keep source given) = none := by
  rw [branchFor_eq_none_iff]
  intro hmem
  obtain ⟨b, hb, rfl⟩ := List.mem_map.1 hmem
  exact (mem_carriedMatches.1 hb).2.2.2 h

/-- Where variants are translated, the first one of each category follows those that are carried. -/
theorem mergeVariants_of_ne_nil (keep : Bool) (source : List Branch) {translated : List Branch}
    (h : translated ≠ []) :
    mergeVariants keep source translated =
      carriedMatches keep source translated ++ firstPerKey translated := by
  have hsame : ∀ b : Branch, (!(firstPerKey translated).any fun c => c.key == b.key) =
      decide (b.key ∉ translated.map (·.key)) := by
    intro b
    rw [Bool.eq_iff_iff, decide_eq_true_iff, ← mem_keys_firstPerKey]
    simp
  rw [mergeVariants, if_neg h]
  simp only [hsame]
  rfl

/-- Variants are merged into the given ones after those that are carried. The given ones are the
translated ones, if there are any, or else those of the source. -/
theorem firstPerKey_mergeVariants (keep : Bool) (source : List Branch)
    {translated? : Option (List Branch)} (h : translated? ≠ some []) :
    firstPerKey (mergeVariants keep source (translated?.getD [])) =
      firstPerKey
        (carriedMatches keep source (translated?.getD source) ++ translated?.getD source) := by
  cases translated? with
  | none =>
      have hnone : carriedMatches keep source source = [] := by
        rw [List.eq_nil_iff_forall_not_mem]
        intro b hb
        obtain ⟨-, hb, -, hnot⟩ := mem_carriedMatches.1 hb
        exact hnot (List.mem_map_of_mem hb)
      rw [Option.getD_none, Option.getD_none, hnone, mergeVariants, if_pos rfl]
      rfl
  | some translated =>
      rw [Option.getD_some, Option.getD_some,
        mergeVariants_of_ne_nil keep source fun hnil => h (by rw [hnil]), firstPerKey_append,
        firstPerKey_append, firstPerKey_firstPerKey]

/-! ### Plurals of rebuilt messages -/

/-- The variants of a plural are completed: `given` are its variants before, `source` those of the
message, of which the exact matches may be kept. -/
structure Plural.Completes (required : List Category) (keep : Bool)
    (source given variants : List Branch) : Prop where
  /-- No key is repeated. -/
  distinct : (variants.map (·.key)).Nodup
  /-- The keys are those required, `other`, those given, and the exact matches that are kept. -/
  keys : ∀ key, key ∈ variants.map (·.key) ↔
    key ∈ required.map Category.name ∨ key = "other" ∨ key ∈ given.map (·.key) ∨
      keep = true ∧ ∃ b ∈ source, b.isExact = true ∧ b.key = key
  /-- A given key has the text that is given for it first. -/
  givenText : ∀ key ∈ given.map (·.key), textOf? variants key = textOf? given key
  /-- Any other exact match has the text that comes first for it in the message. -/
  carriedText : keep = true → ∀ b ∈ source, b.isExact = true → b.key ∉ given.map (·.key) →
    textOf? variants b.key = textOf? source b.key
  /-- A missing `other` has the text of the first given variant that is no exact match, or else of
  the first of all, the carried ones before the given ones; if there are none, it has no text. -/
  otherText : "other" ∉ given.map (·.key) →
    textOf? variants "other" =
      some ((((given.find? fun b => !b.isExact).or
        (carriedMatches keep source given ++ given).head?).map (·.text)).getD "")
  /-- Any other missing category has the text of `other`. -/
  missingText : ∀ c ∈ required, c.name ∉ given.map (·.key) →
    textOf? variants c.name = textOf? variants "other"
  /-- The exact matches stand as they do among the carried and the given variants. -/
  exactOrder : (variants.filter Branch.isExact).map (·.key) =
    (((carriedMatches keep source given ++ given).filter Branch.isExact).map (·.key)).eraseDups
  /-- Exact matches come first, then categories in canonical order, then names in alphabetical
  order. -/
  sorted : variants.Pairwise Branch.Precedes

/-- Completing the given variants after the carried ones. -/
theorem Plural.completes {required : List Category} (hother : .other ∈ required) (keep : Bool)
    (source given : List Branch) :
    Completes required keep source given
      (completeFor required (carriedMatches keep source given ++ given)) where
  distinct := nodup_completeFor _ _
  keys := by
    intro key
    rw [mem_keys_completeFor, List.map_append, List.mem_append]
    constructor
    · rintro ((h | h) | h)
      · obtain ⟨b, hb, rfl⟩ := List.mem_map.1 h
        obtain ⟨hkeep, hsource, hexact, -⟩ := mem_carriedMatches.1 hb
        exact .inr (.inr (.inr ⟨hkeep, b, hsource, hexact, rfl⟩))
      · exact .inr (.inr (.inl h))
      · exact .inl h
    · rintro (h | rfl | h | ⟨hkeep, b, hsource, hexact, rfl⟩)
      · exact .inr h
      · exact .inr (mem_required.2 hother)
      · exact .inl (.inr h)
      · by_cases hgiven : b.key ∈ given.map (·.key)
        · exact .inl (.inr hgiven)
        · exact .inl (.inl (List.mem_map_of_mem
            (mem_carriedMatches.2 ⟨hkeep, hsource, hexact, hgiven⟩)))
  givenText := by
    intro key hkey
    rw [textOf?_completeFor (by rw [List.map_append]; exact List.mem_append_right _ hkey),
      textOf?_eq, textOf?_eq, branchFor_append, branchFor_carriedMatches_eq_none hkey,
      Option.none_or]
  carriedText := by
    intro hkeep b hsource hexact hgiven
    have hmem := mem_carriedMatches.2 ⟨hkeep, hsource, hexact, hgiven⟩
    rw [textOf?_completeFor (List.mem_map_of_mem (List.mem_append_left _ hmem)), textOf?_eq,
      textOf?_eq, branchFor_append, branchFor_carriedMatches hkeep hexact hgiven,
      branchFor_eq_none_iff.2 hgiven, Option.or_none]
  otherText := by
    intro h
    rw [show "other" = Category.other.name from rfl, textOf?_completeFor_other hother,
      fallback_carriedMatches h]
  missingText := by
    intro c hc h
    rw [textOf?_completeFor_missing hc (not_mem_keys_of_name h)]
    exact (textOf?_completeFor_other hother).symm
  exactOrder := by
    rw [filter_isExact_completeFor, keys_firstPerKey_eq_eraseDups]
  sorted := sorted_completeFor _ _

/-- Every language requires the category `other`. -/
theorem Plural.other_mem_required (tag : String) (kind : Kind) : .other ∈ required tag kind :=
  Forms.other_mem_categories _

/-- The kind of numbers, the variable and the variants of a plural. -/
def Content.plural? : Content → Option (Plural.Kind × String × List Branch)
  | .plural name _ variants => some (.cardinal, name, variants)
  | .ordinal name variants => some (.ordinal, name, variants)
  | _ => none

/-- The content with other branches, if it has branches. -/
def Content.rebranched (branches : List Branch) : Content → Content
  | .plural name offset _ => .plural name offset branches
  | .ordinal name _ => .ordinal name branches
  | .select name _ => .select name branches
  | content => content

/-- The variants that replace those of a plural: what is found under its index, unless it is empty,
or else what is found under its variable, unless it is empty. -/
def Replacements.variants? (t : Replacements) (index : Nat) (name : String) :
    Option (List Branch) :=
  ((t.pluralElements.get? index).filter (· ≠ [])).or ((t.plurals.get? name).filter (· ≠ []))

/-- Replacing branches are found under the index or else under the name, where empty lists do not
count. -/
theorem Replacements.branchesFor_eq (byIndex : Entries Int (List Branch))
    (byName : Entries String (List Branch)) (index : Nat) (name : String) :
    let found := ((byIndex.get? index).filter (· ≠ [])).or ((byName.get? name).filter (· ≠ []))
    branchesFor byIndex byName index name = found.getD [] ∧ found ≠ some [] := by
  rw [branchesFor]
  cases byIndex.get? index with
  | none =>
      cases byName.get? name with
      | none => exact ⟨rfl, nofun⟩
      | some branches => cases branches <;> simp [Option.filter]
  | some branches =>
      cases branches with
      | cons b branches => simp [Option.filter]
      | nil =>
          cases byName.get? name with
          | none => simp [Option.filter]
          | some branches => cases branches <;> simp [Option.filter]

/-- The replacing variants are found in this way, and are never empty. -/
theorem Replacements.variantsFor_eq (t : Replacements) (index : Nat) (name : String) :
    t.variantsFor index name = (t.variants? index name).getD [] ∧
      t.variants? index name ≠ some [] :=
  branchesFor_eq t.pluralElements t.plurals index name

/-- Variants that are merged and completed are the given ones after the carried ones, completed. -/
theorem Options.complete_mergeVariants {o : Options} (ho : o.completePlurals = true)
    (kind : Plural.Kind) (keep : Bool) (source : List Branch) {translated? : Option (List Branch)}
    (h : translated? ≠ some []) :
    o.complete kind (mergeVariants keep source (translated?.getD [])) =
      Plural.completeFor (Plural.required o.language kind)
        (carriedMatches keep source (translated?.getD source) ++ translated?.getD source) := by
  rw [Options.complete, if_pos ho, Plural.complete]
  exact Plural.completeFor_congr (firstPerKey_mergeVariants keep source h)

/-- A plural of a rebuilt message is written with its merged variants, completed if the options ask
for it. -/
theorem rebuiltPieces_plural (p : Pattern) (t : Replacements) (o : Options) {i : Nat}
    {e : Element} (he : p.elements[i]? = some e) {kind : Plural.Kind} {name : String}
    {source : List Branch} (hplural : e.content.plural? = some (kind, name, source)) :
    (rebuiltPieces p t o)[i]? =
      some (e.content.rebranched (o.complete kind
        (mergeVariants o.keepExactMatches source (t.variantsFor i name)))).written := by
  rw [getElem?_rebuiltPieces he]
  -- The two kinds of plurals are rebuilt alike, each for its kind of numbers.
  obtain ⟨content, start, stop⟩ := e
  cases content with
  | text value => cases hplural
  | argument name type style => cases hplural
  | select name options => cases hplural
  | plural name offset variants =>
      cases hplural
      rfl
  | ordinal name variants =>
      cases hplural
      rfl

/-- In a rebuilt message each plural is written with the variants that replace its own, if there are
any, or else with its own, completed for the language. -/
theorem rebuild_completes_plurals (p : Pattern) (t : Replacements) {o : Options}
    (ho : o.completePlurals = true) {i : Nat} {e : Element} (he : p.elements[i]? = some e)
    {kind : Plural.Kind} {name : String} {source : List Branch}
    (hplural : e.content.plural? = some (kind, name, source)) :
    rebuild p t o = String.join (rebuiltPieces p t o) ∧
      ∃ variants, (rebuiltPieces p t o)[i]? = some (e.content.rebranched variants).written ∧
        Plural.Completes (Plural.required o.language kind) o.keepExactMatches source
          ((t.variants? i name).getD source) variants := by
  obtain ⟨hvariants, hne⟩ := t.variantsFor_eq i name
  have hmerged := Options.complete_mergeVariants ho kind o.keepExactMatches source hne
  refine ⟨rfl, _, ?_, Plural.completes (Plural.other_mem_required _ _) _ _ _⟩
  rw [rebuiltPieces_plural p t o he hplural, hvariants, hmerged]

/-- A Russian plural whose translation repeats `few`, and whose source has an exact match twice. -/
theorem rebuild_completes_russian_plural :
    let source : List Branch := [⟨"=1", "a"⟩, ⟨"=1", "b"⟩, ⟨"other", "c"⟩]
    let translated : List Branch := [⟨"few", "d"⟩, ⟨"odd", "e"⟩, ⟨"few", "f"⟩]
    let p : Pattern := ⟨"", [⟨.plural "n" none source, 0, 0⟩]⟩
    let t : Replacements := { plurals := [("n", translated)] }
    let o : Options := { language := "ru", completePlurals := true }
    o.completePlurals = true ∧ p.elements[0]? = some ⟨.plural "n" none source, 0, 0⟩ ∧
      (Content.plural "n" none source).plural? = some (.cardinal, "n", source) ∧
      rebuild p t o = String.join (rebuiltPieces p t o) ∧
        ∃ variants, (rebuiltPieces p t o)[0]? =
            some ((Content.plural "n" none source).rebranched variants).written ∧
          Plural.Completes (Plural.required "ru" .cardinal) true source translated variants := by
  intro source translated p t o
  have he : p.elements[0]? = some ⟨.plural "n" none source, 0, 0⟩ := rfl
  exact ⟨rfl, he, rfl, rebuild_completes_plurals p t rfl he rfl⟩

end MessageFormat
