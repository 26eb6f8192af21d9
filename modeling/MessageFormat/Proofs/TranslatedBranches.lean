import MessageFormat.Pattern.Message
import MessageFormat.Proofs.Completing

/-!
# Translated branches

Which branches a construct of a rebuilt message has when some were translated, as long as no
categories are added. The options of a select are its translated options in another order, and
nothing of a translation is lost (`takeInOrder_perm`). The variants of a plural are its translated
variants after the exact matches of the source that are carried over. Those are carried over with
their repetitions, so an exact match that the source repeats is repeated in the rebuilt message.
-/

namespace MessageFormat

variable {source translated : List Branch}

/-! ### Options -/

/-- The branches in the order in which the source has their keys, and after them those whose keys it
does not have. A branch is taken out when its key comes for the first time. -/
def takeInOrder : List Branch → List Branch → List Branch
  | [], branches => branches
  | b :: source, branches =>
    match branchFor b.key branches with
    | none => takeInOrder source branches
    | some found => found :: takeInOrder source (branches.filter fun c => c.key != b.key)

/-- Looking keys up among branches of other keys finds what there is under those other keys. -/
theorem branchFor_filter_ne (key other : String) (branches : List Branch) :
    branchFor other (branches.filter fun c => c.key != key) =
      if other = key then none else branchFor other branches := by
  rw [branchFor, List.find?_filter]
  split
  · next h =>
    subst h
    rw [List.find?_eq_none]
    simp
  · next h =>
    rw [branchFor]
    congr 1
    funext c
    by_cases hc : c.key = other
    · simp [hc, h]
    · simp [hc]

/-- Merging options takes the first translated one of each key in the order of the source. -/
theorem takeInOrder_eq (source branches : List Branch) :
    takeInOrder source branches =
      (firstPerKey source).filterMap (fun b => branchFor b.key branches) ++
        branches.filter fun c => !source.any fun b => b.key == c.key := by
  induction source generalizing branches with
  | nil => simp [takeInOrder, firstPerKey]
  | cons b source ih =>
      have hknown : ((firstPerKey source).filter fun c => c.key != b.key).filterMap
            (fun c => branchFor c.key branches) =
          (firstPerKey source).filterMap
            fun c => branchFor c.key (branches.filter fun c => c.key != b.key) := by
        rw [List.filterMap_filter]
        refine List.filterMap_congr fun c _ => ?_
        rw [branchFor_filter_ne]
        by_cases hc : c.key = b.key <;> simp [hc]
      have hadded : (branches.filter fun c => !(b :: source).any fun b => b.key == c.key) =
          (branches.filter fun c => c.key != b.key).filter
            fun c => !source.any fun b => b.key == c.key := by
        rw [List.filter_filter]
        refine List.filter_congr fun c _ => ?_
        rw [List.any_cons, Bool.not_or, Bool.and_comm, bne, BEq.comm]
      rw [takeInOrder, firstPerKey, List.filterMap_cons, hadded, hknown]
      cases hfound : branchFor b.key branches with
      | some found => simp [ih]
      | none =>
          have hall : (branches.filter fun c => c.key != b.key) = branches := by
            rw [branchFor, List.find?_eq_none] at hfound
            exact List.filter_eq_self.2 (by simpa using hfound)
          simp [ih, hall]

/-- Merged options are the first translated ones of each key in the order of the source. -/
theorem mergeOptions_of_ne_nil (source : List Branch) (h : translated ≠ []) :
    mergeOptions source translated = takeInOrder source (firstPerKey translated) := by
  rw [mergeOptions, if_neg h, takeInOrder_eq]
  simp only [branchFor, BEq.comm]

/-- Taking branches in another order loses none of them and adds none. -/
theorem takeInOrder_perm (source : List Branch) {branches : List Branch}
    (h : (branches.map (·.key)).Nodup) : (takeInOrder source branches).Perm branches := by
  induction source generalizing branches with
  | nil => exact .refl _
  | cons b source ih =>
      rw [takeInOrder]
      split
      · exact ih h
      · next found hfound =>
        -- The branch that is taken out is the only one with its key.
        have hwith : branches.filter (fun c => c.key == b.key) = [found] := by
          have hone := branchesWith_firstPerKey b.key branches
          rwa [firstPerKey_eq_self h, hfound] at hone
        have hrest := ih (h.sublist ((List.filter_sublist (p := fun c => c.key != b.key)).map _))
        have hsplit := List.filter_append_perm (fun c : Branch => c.key == b.key) branches
        rw [hwith] at hsplit
        exact (hrest.cons found).trans hsplit

/-- The keys that the source has come first, in its order. -/
theorem keys_takeInOrder (source branches : List Branch) :
    (takeInOrder source branches).map (·.key) =
      (source.map (·.key)).eraseDups.filter (· ∈ branches.map (·.key)) ++
        (branches.map (·.key)).filter (· ∉ source.map (·.key)) := by
  have hknown : ∀ wanted : List Branch,
      (wanted.filterMap fun b => branchFor b.key branches).map (·.key) =
        (wanted.map (·.key)).filter (· ∈ branches.map (·.key)) := by
    intro wanted
    induction wanted with
    | nil => rfl
    | cons b wanted ih =>
        rw [List.filterMap_cons, List.map_cons, List.filter_cons, ← ih]
        cases hfound : branchFor b.key branches with
        | none => rw [if_neg (by simpa using branchFor_eq_none_iff.1 hfound)]
        | some found =>
            have hkey := key_of_branchFor hfound
            have hmem : b.key ∈ branches.map (·.key) := by
              rw [← hkey]
              exact List.mem_map_of_mem (List.mem_of_find?_eq_some hfound)
            rw [if_pos (decide_eq_true hmem), List.map_cons, hkey]
  have hadded : (branches.filter fun c => !source.any fun b => b.key == c.key).map (·.key) =
      (branches.map (·.key)).filter (· ∉ source.map (·.key)) := by
    rw [List.filter_map]
    congr 1
    refine List.filter_congr fun c _ => ?_
    rw [Bool.eq_iff_iff]
    simp
  rw [takeInOrder_eq, List.map_append, hknown, hadded, keys_firstPerKey_eq_eraseDups]

/-- The options are those of a translation, in the order of the source. -/
structure MergedOptions (source translated options : List Branch) : Prop where
  /-- No key is repeated. -/
  distinct : (options.map (·.key)).Nodup
  /-- The keys are those of the translation. -/
  keys : ∀ key, key ∈ options.map (·.key) ↔ key ∈ translated.map (·.key)
  /-- Each key has the text that comes first for it in the translation. -/
  text : ∀ key, textOf? options key = textOf? translated key
  /-- The keys that the source has come first, in its order, and then the others in the order of the
  translation. -/
  order : options.map (·.key) =
    (source.map (·.key)).eraseDups.filter (· ∈ translated.map (·.key)) ++
      (translated.map (·.key)).eraseDups.filter (· ∉ source.map (·.key))

/-- Merging options loses nothing of a translation. -/
theorem mergedOptions (source : List Branch) (h : translated ≠ []) :
    MergedOptions source translated (mergeOptions source translated) := by
  have hdistinct : ((firstPerKey translated).map (·.key)).Nodup :=
    nodup_keys fun key => ⟨_, branchesWith_firstPerKey key translated⟩
  have hperm := takeInOrder_perm source hdistinct
  rw [mergeOptions_of_ne_nil source h]
  constructor
  case distinct => exact (hperm.map _).nodup_iff.2 hdistinct
  case keys =>
    intro key
    rw [(hperm.map _).mem_iff, mem_keys_firstPerKey]
  case text =>
    intro key
    rw [textOf?_eq, textOf?_eq, branchFor_of_branchesWith
      (branchesWith_perm hperm.symm (branchesWith_firstPerKey key translated))]
  case order =>
    rw [keys_takeInOrder, keys_firstPerKey_eq_eraseDups]
    simp only [List.mem_eraseDups]

/-- The options that replace those of a select: what is found under its index, unless it is empty,
or else what is found under its variable, unless it is empty. -/
def Replacements.options? (t : Replacements) (index : Nat) (name : String) :
    Option (List Branch) :=
  ((t.selectElements.get? index).filter (· ≠ [])).or ((t.selects.get? name).filter (· ≠ []))

/-- In a rebuilt message each select is written with its own options if none are translated, and
else with those of the translation, in the order of the source. -/
theorem rebuild_merges_options (p : Pattern) (t : Replacements) (o : Options) {i : Nat}
    {e : Element} (he : p.elements[i]? = some e) {name : String} {source : List Branch}
    (hselect : e.content = .select name source) :
    rebuild p t o = String.join (rebuiltPieces p t o) ∧
      ∃ options, (rebuiltPieces p t o)[i]? = some (writeSelect name options) ∧
        (t.options? i name = none → options = source) ∧
        ∀ translated, t.options? i name = some translated →
          MergedOptions source translated options := by
  obtain ⟨hoptions, hne⟩ := Replacements.branchesFor_eq t.selectElements t.selects i name
  rw [← Replacements.optionsFor, ← Replacements.options?] at hoptions
  rw [← Replacements.options?] at hne
  refine ⟨rfl, mergeOptions source (t.optionsFor i name), ?_, fun hnone => ?_,
    fun translated hsome => ?_⟩
  · rw [getElem?_rebuiltPieces he]
    simp only [rebuildElement, hselect]
  · rw [hoptions, hnone, Option.getD_none, mergeOptions, if_pos rfl]
  · rw [hoptions, hsome, Option.getD_some]
    refine mergedOptions source fun hnil => hne ?_
    rw [hsome, hnil]

/-- A select with a repeated option, whose translation repeats one, lacks one and has a new one. -/
theorem rebuild_merges_repeated_options :
    let source : List Branch := [⟨"her", "a"⟩, ⟨"him", "b"⟩, ⟨"her", "c"⟩, ⟨"other", "d"⟩]
    let translated : List Branch := [⟨"other", "x"⟩, ⟨"them", "y"⟩, ⟨"her", "z"⟩, ⟨"other", "w"⟩]
    let p : Pattern := ⟨"", [⟨.select "g" source, 0, 0⟩]⟩
    let t : Replacements := { selects := [("g", translated)], selectElements := [(0, [])] }
    p.elements[0]? = some ⟨.select "g" source, 0, 0⟩ ∧
      (⟨.select "g" source, 0, 0⟩ : Element).content = .select "g" source ∧
      rebuild p t {} = String.join (rebuiltPieces p t {}) ∧
        ∃ options, (rebuiltPieces p t {})[0]? = some (writeSelect "g" options) ∧
          MergedOptions source translated options := by
  intro source translated p t
  have he : p.elements[0]? = some ⟨.select "g" source, 0, 0⟩ := rfl
  obtain ⟨hjoined, options, hpiece, -, hmerged⟩ := rebuild_merges_options p t {} he rfl
  exact ⟨he, rfl, hjoined, options, hpiece, hmerged translated rfl⟩

/-! ### Variants -/

/-- The variants are those of a translation, after the exact matches of the source that it lacks, if
they are to be kept. -/
structure MergedVariants (keep : Bool) (source translated variants : List Branch) : Prop where
  /-- No key is repeated. -/
  distinct : (variants.map (·.key)).Nodup
  /-- The keys of the carried exact matches come first, in the order of the source, and then those
  of the translation, in its order. -/
  order : variants.map (·.key) =
    ((carriedMatches keep source translated).map (·.key)).eraseDups ++
      (translated.map (·.key)).eraseDups
  /-- Each translated key has the text that comes first for it in the translation. -/
  translatedText : ∀ key ∈ translated.map (·.key), textOf? variants key = textOf? translated key
  /-- Each carried key has the text that comes first for it in the source. -/
  carriedText : ∀ b ∈ carriedMatches keep source translated,
    textOf? variants b.key = textOf? source b.key

variable {keep : Bool} {variants : List Branch}

/-- Branches with distinct keys are determined by the order of the keys and the text of each. -/
theorem branches_ext {first second : List Branch} (hdistinct : (first.map (·.key)).Nodup)
    (hkeys : first.map (·.key) = second.map (·.key))
    (htext : ∀ key ∈ first.map (·.key), textOf? first key = textOf? second key) :
    first = second := by
  have hread : ∀ {branches : List Branch}, (branches.map (·.key)).Nodup →
      (branches.map (·.key)).map (fun key => (key, textOf? branches key)) =
        branches.map fun b => (b.key, some b.text) := by
    intro branches hnodup
    rw [List.map_map]
    refine List.map_congr_left fun b hb => ?_
    rw [← firstPerKey_eq_self hnodup] at hb
    rw [Function.comp_apply, textOf?_eq, branchFor_of_mem_firstPerKey hb]
    rfl
  have hpairs : first.map (fun b => (b.key, some b.text)) =
      second.map fun b => (b.key, some b.text) := by
    rw [← hread hdistinct, ← hread (hkeys ▸ hdistinct), ← hkeys]
    exact List.map_congr_left fun key hkey => by rw [htext key hkey]
  have hinjective : Function.Injective fun b : Branch => (b.key, some b.text) := by
    rintro ⟨key, text⟩ ⟨key', text'⟩ h
    cases h
    rfl
  exact List.map_injective_iff.2 hinjective hpairs

/-- The carried keys are not among the translated ones, so the first branches are those of both. -/
theorem firstPerKey_carriedMatches_append (keep : Bool) (source translated : List Branch) :
    firstPerKey (carriedMatches keep source translated ++ firstPerKey translated) =
      firstPerKey (carriedMatches keep source translated) ++ firstPerKey translated := by
  rw [firstPerKey_append, firstPerKey_firstPerKey, List.filter_eq_self.2]
  intro b hb
  refine decide_eq_true fun hmem => ?_
  obtain ⟨c, hc, hkey⟩ := List.mem_map.1 hmem
  refine (mem_carriedMatches.1 hc).2.2.2 ?_
  rw [hkey]
  exact List.mem_map_of_mem (mem_of_mem_firstPerKey hb)

/-- Once repetitions are dropped, merged variants are as they should be. -/
theorem mergedVariants_firstPerKey (keep : Bool) (source translated : List Branch) :
    MergedVariants keep source translated
      (firstPerKey (carriedMatches keep source translated ++ firstPerKey translated)) := by
  constructor
  case distinct => exact nodup_keys fun key => ⟨_, branchesWith_firstPerKey key _⟩
  case order =>
    rw [firstPerKey_carriedMatches_append, List.map_append, keys_firstPerKey_eq_eraseDups,
      keys_firstPerKey_eq_eraseDups]
  case translatedText =>
    intro key hkey
    rw [textOf?_eq, textOf?_eq, branchFor_firstPerKey, branchFor_append,
      branchFor_carriedMatches_eq_none hkey, Option.none_or, branchFor_firstPerKey]
  case carriedText =>
    intro b hb
    obtain ⟨hkeep, -, hexact, hlacked⟩ := mem_carriedMatches.1 hb
    rw [textOf?_eq, textOf?_eq, branchFor_firstPerKey, branchFor_append,
      branchFor_carriedMatches hkeep hexact hlacked, branchFor_firstPerKey,
      branchFor_eq_none_iff.2 hlacked, Option.or_none]

/-- There is one list of variants that is as it should be. -/
theorem MergedVariants.eq (h : MergedVariants keep source translated variants) :
    variants = firstPerKey (carriedMatches keep source translated ++ firstPerKey translated) := by
  have hmerged := mergedVariants_firstPerKey keep source translated
  have hkeys := h.order.trans hmerged.order.symm
  refine branches_ext h.distinct hkeys fun key hkey => ?_
  rw [h.order, List.mem_append, List.mem_eraseDups, List.mem_eraseDups] at hkey
  rcases hkey with hkey | hkey
  · obtain ⟨b, hb, rfl⟩ := List.mem_map.1 hkey
    rw [h.carriedText b hb, hmerged.carriedText b hb]
  · rw [h.translatedText key hkey, hmerged.translatedText key hkey]

/-- Merged variants are as they should be exactly if no exact match is carried twice. -/
theorem mergedVariants_iff (keep : Bool) (source translated : List Branch) :
    MergedVariants keep source translated
        (carriedMatches keep source translated ++ firstPerKey translated) ↔
      ((carriedMatches keep source translated).map (·.key)).Nodup := by
  constructor
  · intro h
    have hdistinct := h.distinct
    rw [List.map_append] at hdistinct
    exact (List.nodup_append.1 hdistinct).1
  · intro h
    have hmerged := mergedVariants_firstPerKey keep source translated
    rwa [firstPerKey_carriedMatches_append, firstPerKey_eq_self h] at hmerged

/-- In a rebuilt message each plural with translated variants is written with those after the exact
matches that are carried, and these are repeated where the source repeats them. -/
theorem rebuild_merges_variants (p : Pattern) (t : Replacements) {o : Options}
    (ho : o.completePlurals = false) {i : Nat} {e : Element} (he : p.elements[i]? = some e)
    {kind : Plural.Kind} {name : String} {source translated : List Branch}
    (hplural : e.content.plural? = some (kind, name, source))
    (htranslated : t.variants? i name = some translated) :
    rebuild p t o = String.join (rebuiltPieces p t o) ∧
      ∃ variants, (rebuiltPieces p t o)[i]? = some (e.content.rebranched variants).written ∧
        MergedVariants o.keepExactMatches source translated (firstPerKey variants) ∧
        (MergedVariants o.keepExactMatches source translated variants ↔
          ((carriedMatches o.keepExactMatches source translated).map (·.key)).Nodup) := by
  obtain ⟨hvariants, hne⟩ := t.variantsFor_eq i name
  rw [htranslated] at hvariants hne
  have hmerged := mergeVariants_of_ne_nil o.keepExactMatches source
    fun hnil : translated = [] => hne (by rw [hnil])
  refine ⟨rfl, carriedMatches o.keepExactMatches source translated ++ firstPerKey translated, ?_,
    mergedVariants_firstPerKey _ _ _, mergedVariants_iff _ _ _⟩
  rw [rebuiltPieces_plural p t o he hplural, hvariants, Option.getD_some, hmerged,
    Options.complete, if_neg (by simp [ho])]

/-- An ordinal plural that repeats an exact match, which its translation has; the translation itself
repeats `other`. -/
theorem rebuild_merges_repeated_variants :
    let source : List Branch := [⟨"=1", "a"⟩, ⟨"=2", "b"⟩, ⟨"other", "c"⟩, ⟨"=2", "d"⟩]
    let translated : List Branch := [⟨"other", "x"⟩, ⟨"=2", "y"⟩, ⟨"other", "z"⟩]
    let p : Pattern := ⟨"", [⟨.ordinal "n" source, 0, 0⟩]⟩
    let t : Replacements := { plurals := [("n", translated)] }
    let o : Options := {}
    o.completePlurals = false ∧ p.elements[0]? = some ⟨.ordinal "n" source, 0, 0⟩ ∧
      (Content.ordinal "n" source).plural? = some (.ordinal, "n", source) ∧
      t.variants? 0 "n" = some translated ∧
      rebuild p t o = String.join (rebuiltPieces p t o) ∧
        ∃ variants, (rebuiltPieces p t o)[0]? =
            some ((Content.ordinal "n" source).rebranched variants).written ∧
          MergedVariants true source translated variants := by
  intro source translated p t o
  have ho : o.completePlurals = false := rfl
  have he : p.elements[0]? = some ⟨.ordinal "n" source, 0, 0⟩ := rfl
  obtain ⟨hjoined, variants, hpiece, -, hmerged⟩ := rebuild_merges_variants p t ho he rfl rfl
  exact ⟨ho, he, rfl, rfl, hjoined, variants, hpiece, hmerged.2 (by decide)⟩

/-- A plural with an exact match twice, which its translation lacks: the rebuilt plural has it twice
as well, and is not what it is with variants that are as they should be. -/
theorem rebuild_repeats_exact_match :
    let source : List Branch := [⟨"=1", "a"⟩, ⟨"=1", "b"⟩, ⟨"other", "c"⟩]
    let translated : List Branch := [⟨"other", "x"⟩]
    let p : Pattern :=
      ⟨"\x7bn, plural, =1 \x7ba\x7d =1 \x7bb\x7d other \x7bc\x7d\x7d",
        [⟨.plural "n" none source, 0, 36⟩]⟩
    let t : Replacements := { plurals := [("n", translated)] }
    parse p.source = .ok ⟨p, ["n"], true, false⟩ ∧
      rebuild p t {} = "\x7bn, plural, =1 \x7ba\x7d =1 \x7bb\x7d other \x7bx\x7d\x7d" ∧
      ∀ variants, MergedVariants true source translated variants →
        (rebuiltPieces p t {})[0]? ≠
          some ((Content.plural "n" none source).rebranched variants).written := by
  intro source translated p t
  refine ⟨by decide +kernel, by decide +kernel, fun variants h => ?_⟩
  rw [h.eq]
  decide +kernel

end MessageFormat
