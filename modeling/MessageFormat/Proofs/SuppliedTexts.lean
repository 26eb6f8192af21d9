import MessageFormat.Rebuild.Supplied

/-!
# Supplied texts

Rebuilding with supplied replacements is rebuilding with replacements that say the same of each
element (`Supplied.Says`). There are such replacements if the strings that take part are texts, and
whichever they are, the rebuilt message is the same (`Supplied.rebuild?_eq_some_iff`).
-/

namespace MessageFormat

/-- Texts are told apart as strings. -/
theorem CodeString.ofString_inj {s t : String} : ofString s = ofString t ↔ s = t := by
  rw [← text?_eq_some_iff, text?_eq_some_iff.2 rfl, Option.some.injEq]

/-- Texts are compared as strings. -/
theorem CodeString.beq_ofString (s t : String) : (ofString s == ofString t) = (s == t) := by
  rw [Bool.eq_iff_iff, beq_iff_eq, beq_iff_eq, ofString_inj]

/-- A string is a text if it is made of one. -/
theorem CodeString.isText_iff {s : CodeString} : s.isText = true ↔ ∃ t, s = ofString t := by
  simp only [isText, Option.isSome_iff_exists, text?_eq_some_iff]

namespace SuppliedBranch

/-- A branch as it would be supplied. -/
def ofBranch (b : Branch) : SuppliedBranch :=
  ⟨b.key, b.text⟩

/-- The key of a branch as it would be supplied. -/
theorem key_ofBranch (b : Branch) : (ofBranch b).key = b.key :=
  rfl

/-- The branch that a supplied one is. -/
theorem branch?_eq_some_iff {b : SuppliedBranch} {c : Branch} :
    b.branch? = some c ↔ b = ofBranch c := by
  obtain ⟨key, text⟩ := b
  obtain ⟨key', text'⟩ := c
  simp [branch?, ofBranch, Option.bind_eq_some_iff, CodeString.text?_eq_some_iff]

/-- Branches are told apart as they would be supplied. -/
theorem ofBranch_injective : Function.Injective ofBranch := by
  intro b c h
  rw [← Option.some.injEq, ← branch?_eq_some_iff.2 h, branch?_eq_some_iff.2 rfl]

/-- If the first supplied branches of some keys are texts, they are the first branches of these keys
among the texts. -/
theorem filter_firstPerKey_texts {supplied : List SuppliedBranch} (keep : CodeString → Bool)
    (h : ∀ b ∈ (firstPerKey supplied).filter (fun b => keep b.key), ∃ c, b = ofBranch c) :
    ((MessageFormat.firstPerKey (supplied.filterMap branch?)).filter fun c => keep c.key).map
        ofBranch =
      (firstPerKey supplied).filter fun b => keep b.key := by
  induction supplied generalizing keep with
  | nil => rfl
  | cons b rest ih =>
      have hrest : ((firstPerKey rest).filter fun c => c.key != b.key).filter
            (fun c => keep c.key) =
          (firstPerKey rest).filter fun c => keep c.key && c.key != b.key := List.filter_filter
      rw [firstPerKey, List.filter_cons, hrest] at h ⊢
      cases hkeep : keep b.key with
      | true =>
          -- The branch is the first of its key, which is no longer wanted in the rest.
          rw [hkeep, if_pos rfl] at h
          obtain ⟨c, rfl⟩ := h b List.mem_cons_self
          rw [key_ofBranch] at hkeep h ⊢
          have hfirst := ih (fun key => keep key && key != c.key)
            fun d hd => h d (List.mem_cons_of_mem _ hd)
          rw [List.filterMap_cons_some (branch?_eq_some_iff.2 rfl), MessageFormat.firstPerKey,
            List.filter_cons, if_pos hkeep, if_pos rfl, List.map_cons, List.filter_filter]
          simp only [bne, CodeString.beq_ofString] at hfirst
          exact congrArg _ hfirst
      | false =>
          -- The key of the branch was not wanted before, so the branch changes nothing.
          have hsame : ∀ key, (keep key && key != b.key) = keep key := by
            intro key
            by_cases hkey : key = b.key <;> simp [hkey, hkeep]
          simp only [hkeep, hsame, Bool.false_eq_true, if_false] at h ⊢
          rw [← ih keep h]
          cases hb : b.branch? with
          | none => rw [List.filterMap_cons_none hb]
          | some c =>
              obtain rfl := branch?_eq_some_iff.1 hb
              rw [key_ofBranch] at hkeep hsame
              rw [List.filterMap_cons_some hb, MessageFormat.firstPerKey, List.filter_cons,
                if_neg (by simp [hkeep]), List.filter_filter]
              congr 1
              refine List.filter_congr fun d _ => ?_
              have hd := hsame d.key
              rw [bne, CodeString.beq_ofString] at hd
              exact hd

/-- If the first supplied branches are texts, they are the first branches among the texts. -/
theorem firstPerKey_texts {supplied : List SuppliedBranch}
    (h : ∀ b ∈ firstPerKey supplied, ∃ c, b = ofBranch c) :
    (MessageFormat.firstPerKey (supplied.filterMap branch?)).map ofBranch =
      firstPerKey supplied := by
  have hall := filter_firstPerKey_texts (fun _ => true) (by simpa using h)
  rwa [List.filter_eq_self.2 (by simp), List.filter_eq_self.2 (by simp)] at hall

end SuppliedBranch

namespace Supplied

variable {s : Supplied} {r r' : Replacements} {p : Pattern} {o : Options}

/-! ### Looking up -/

/-- The text that is found under an index, if what is supplied for it is a text. -/
theorem get?_texts {entries : Entries Int CodeString} {index : Int}
    (h : ∀ t ∈ entries.get? index, t.isText = true) :
    (Entries.get? (entries.filterMap textUnder?) index).map CodeString.ofString =
      entries.get? index := by
  induction entries with
  | nil => rfl
  | cons entry entries ih =>
      obtain ⟨i, t⟩ := entry
      rw [Entries.get?_cons] at h ⊢
      by_cases hi : i = index
      · rw [if_pos hi] at h ⊢
        obtain ⟨text, rfl⟩ := CodeString.isText_iff.1 (h t rfl)
        have hentry : textUnder? (i, CodeString.ofString text) = some (i, text) := by
          rw [textUnder?, CodeString.text?_eq_some_iff.2 rfl]
          rfl
        rw [List.filterMap_cons_some hentry, Entries.get?_cons, if_pos hi]
        rfl
      · rw [if_neg hi] at h ⊢
        rw [← ih h]
        cases hentry : textUnder? (i, t) with
        | none => rw [List.filterMap_cons_none hentry]
        | some found =>
            obtain ⟨text, -, rfl⟩ := Option.map_eq_some_iff.1 hentry
            rw [List.filterMap_cons_some hentry, Entries.get?_cons, if_neg hi]

/-- The branches that are found under a name are the texts among those supplied for it. -/
theorem get?_branches (entries : Entries CodeString (List SuppliedBranch)) (name : String) :
    Entries.get? (entries.filterMap branchesUnder?) name =
      (entries.get? name).map fun branches => branches.filterMap SuppliedBranch.branch? := by
  induction entries with
  | nil => rfl
  | cons entry entries ih =>
      obtain ⟨key, branches⟩ := entry
      rw [Entries.get?_cons]
      cases hentry : branchesUnder? (key, branches) with
      | none =>
          have hne : key ≠ name := by
            rintro rfl
            rw [branchesUnder?, CodeString.text?_eq_some_iff.2 rfl] at hentry
            cases hentry
          rw [List.filterMap_cons_none hentry, if_neg hne, ih]
      | some found =>
          obtain ⟨text, htext, rfl⟩ := Option.map_eq_some_iff.1 hentry
          obtain rfl := CodeString.text?_eq_some_iff.1 htext
          rw [List.filterMap_cons_some hentry, Entries.get?_cons, ih]
          simp only [CodeString.ofString_inj]
          split <;> rfl

/-! ### Saying what is supplied -/

/-- Branches say what is supplied for a construct: the first branches of each key are the same. -/
def SaysBranches (branches : List Branch) (supplied : List SuppliedBranch) : Prop :=
  (firstPerKey branches).map SuppliedBranch.ofBranch = SuppliedBranch.firstPerKey supplied

/-- Replacements say what is supplied for an element. -/
def SaysFor (s : Supplied) (r : Replacements) (index : Nat) : Content → Prop
  | .text _ => (r.text.get? index).map CodeString.ofString = s.text.get? index
  | .argument _ _ _ => True
  | .plural name _ _ => SaysBranches (r.variantsFor index name) (branchesFor s.plurals name)
  | .ordinal name _ => SaysBranches (r.variantsFor index name) (branchesFor s.plurals name)
  | .select name _ => SaysBranches (r.optionsFor index name) (branchesFor s.selects name)

/-- Replacements say what is supplied for each element of a pattern. -/
def Says (s : Supplied) (p : Pattern) (r : Replacements) : Prop :=
  ∀ (index : Nat) (e : Element), p.elements[index]? = some e → s.SaysFor r index e.content

/-- The branches among the texts say what is supplied, if its strings are texts. -/
theorem saysBranches_texts {entries : Entries CodeString (List SuppliedBranch)} {name : String}
    (h : ∀ t ∈ branchStrings (branchesFor entries name), t.isText = true) :
    SaysBranches ((Entries.get? (entries.filterMap branchesUnder?) name).getD [])
      (branchesFor entries name) := by
  have htexts : ((entries.get? name).map fun branches =>
        branches.filterMap SuppliedBranch.branch?).getD [] =
      (branchesFor entries name).filterMap SuppliedBranch.branch? := by
    rw [branchesFor]
    cases entries.get? (CodeString.ofString name) <;> rfl
  rw [SaysBranches, get?_branches, htexts]
  refine SuppliedBranch.firstPerKey_texts fun b hb => ?_
  have hstrings : ∀ t ∈ [b.key, b.text], t.isText = true :=
    fun t ht => h t (List.mem_flatMap.2 ⟨b, hb, ht⟩)
  obtain ⟨key, hkey⟩ := CodeString.isText_iff.1 (hstrings b.key (by simp))
  obtain ⟨text, htext⟩ := CodeString.isText_iff.1 (hstrings b.text (by simp))
  refine ⟨⟨key, text⟩, ?_⟩
  rw [SuppliedBranch.ofBranch, ← hkey, ← htext]

/-- The replacements among what is supplied say it for an element, if its strings are texts. -/
theorem saysFor_toReplacements {index : Nat} {c : Content}
    (h : ∀ t ∈ s.usedFor index c, t.isText = true) : s.SaysFor s.toReplacements index c := by
  cases c with
  | text value => exact get?_texts fun t ht => h t (Option.mem_toList.2 ht)
  | argument name type style => trivial
  | plural name offset variants => exact saysBranches_texts h
  | ordinal name variants => exact saysBranches_texts h
  | select name options => exact saysBranches_texts h

/-- What branches say is text. -/
theorem SaysBranches.isText {branches : List Branch} {supplied : List SuppliedBranch}
    (h : SaysBranches branches supplied) : ∀ t ∈ branchStrings supplied, t.isText = true := by
  intro t ht
  obtain ⟨b, hb, ht⟩ := List.mem_flatMap.1 ht
  rw [← h] at hb
  obtain ⟨c, -, rfl⟩ := List.mem_map.1 hb
  rw [CodeString.isText_iff]
  simp only [List.mem_cons, List.not_mem_nil, or_false] at ht
  rcases ht with rfl | rfl
  · exact ⟨c.key, rfl⟩
  · exact ⟨c.text, rfl⟩

/-- What replacements say for an element is text. -/
theorem SaysFor.isText {index : Nat} {c : Content} (h : s.SaysFor r index c) :
    ∀ t ∈ s.usedFor index c, t.isText = true := by
  cases c with
  | text value =>
      intro t ht
      have hsaid : (r.text.get? index).map CodeString.ofString = s.text.get? index := h
      rw [usedFor, ← hsaid, Option.mem_toList, Option.map_eq_some_iff] at ht
      obtain ⟨text, -, rfl⟩ := ht
      exact CodeString.isText_iff.2 ⟨text, rfl⟩
  | argument name type style => exact nofun
  | plural name offset variants => exact SaysBranches.isText h
  | ordinal name variants => exact SaysBranches.isText h
  | select name options => exact SaysBranches.isText h

/-- Strings take part in a pattern if they do in one of its elements. -/
theorem mem_used {t : CodeString} :
    t ∈ s.used p ↔ ∃ (index : Nat) (e : Element),
      p.elements[index]? = some e ∧ t ∈ s.usedFor index e.content := by
  simp only [used, List.mem_flatMap, Prod.exists, List.mem_zipIdx_iff_getElem?]
  exact exists_comm

/-- What replacements say for a pattern is text. -/
theorem Says.isText (h : s.Says p r) : ∀ t ∈ s.used p, t.isText = true := by
  intro t ht
  obtain ⟨index, e, he, ht⟩ := mem_used.1 ht
  exact (h index e he).isText t ht

/-- The replacements among what is supplied say it for a pattern, if its strings are texts. -/
theorem says_toReplacements (h : ∀ t ∈ s.used p, t.isText = true) : s.Says p s.toReplacements :=
  fun index e he => saysFor_toReplacements fun t ht => h t (mem_used.2 ⟨index, e, he, ht⟩)

/-! ### Rebuilding -/

/-- Branches that say the same are merged alike. -/
theorem SaysBranches.firstPerKey_eq {branches branches' : List Branch}
    {supplied : List SuppliedBranch} (h : SaysBranches branches supplied)
    (h' : SaysBranches branches' supplied) : firstPerKey branches = firstPerKey branches' :=
  (List.map_inj_right fun _ _ heq => SuppliedBranch.ofBranch_injective heq).1 (h.trans h'.symm)

/-- There is a branch exactly if there is a first branch of some key. -/
theorem firstPerKey_eq_nil_iff (branches : List Branch) :
    firstPerKey branches = [] ↔ branches = [] := by
  cases branches <;> simp [firstPerKey]

/-- Variants of the same first ones are merged alike. -/
theorem mergeVariants_congr {branches branches' : List Branch}
    (h : firstPerKey branches = firstPerKey branches') (keep : Bool) (source : List Branch) :
    mergeVariants keep source branches = mergeVariants keep source branches' := by
  simp only [mergeVariants, ← firstPerKey_eq_nil_iff branches,
    ← firstPerKey_eq_nil_iff branches', h]

/-- Options of the same first ones are merged alike. -/
theorem mergeOptions_congr {branches branches' : List Branch}
    (h : firstPerKey branches = firstPerKey branches') (source : List Branch) :
    mergeOptions source branches = mergeOptions source branches' := by
  simp only [mergeOptions, ← firstPerKey_eq_nil_iff branches,
    ← firstPerKey_eq_nil_iff branches', h]

/-- Replacements that say the same of an element make the same piece of it. -/
theorem SaysFor.rebuildElement_eq {index : Nat} {e : Element} (h : s.SaysFor r index e.content)
    (h' : s.SaysFor r' index e.content) :
    rebuildElement p r o index e = rebuildElement p r' o index e := by
  rw [rebuildElement, rebuildElement]
  cases hcontent : e.content with
  | text value =>
      rw [hcontent] at h h'
      have htext : r.text.get? index = r'.text.get? index :=
        Option.map_injective (fun _ _ => CodeString.ofString_inj.1) (Eq.trans h (Eq.symm h'))
      simp only [htext]
  | argument name type style => rfl
  | plural name offset variants =>
      rw [hcontent] at h h'
      simp only [mergeVariants_congr (SaysBranches.firstPerKey_eq h h')]
  | ordinal name variants =>
      rw [hcontent] at h h'
      simp only [mergeVariants_congr (SaysBranches.firstPerKey_eq h h')]
  | select name options =>
      rw [hcontent] at h h'
      simp only [mergeOptions_congr (SaysBranches.firstPerKey_eq h h')]

/-- Replacements that say the same make the same message. -/
theorem Says.rebuild_eq (h : s.Says p r) (h' : s.Says p r') : rebuild p r o = rebuild p r' o := by
  rw [rebuild, rebuild, rebuiltPieces, rebuiltPieces]
  congr 1
  refine List.ext_getElem? fun index => ?_
  rw [List.getElem?_mapIdx, List.getElem?_mapIdx]
  cases he : p.elements[index]? with
  | none => rfl
  | some e => exact congrArg some ((h index e he).rebuildElement_eq (h' index e he))

/-- A message is rebuilt with what is supplied exactly if there are replacements that say it, and
then it is the message that these make. -/
theorem rebuild?_eq_some_iff {text : String} :
    s.rebuild? p o = some text ↔ ∃ r, s.Says p r ∧ rebuild p r o = text := by
  rw [rebuild?]
  constructor
  · intro h
    split at h
    case isFalse => cases h
    case isTrue hused =>
      exact ⟨_, says_toReplacements (List.all_eq_true.1 hused), Option.some.inj h⟩
  · rintro ⟨r, hr, rfl⟩
    rw [if_pos (List.all_eq_true.2 hr.isText), (says_toReplacements hr.isText).rebuild_eq hr]

end Supplied

end MessageFormat
