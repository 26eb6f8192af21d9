import MessageFormat.Proofs.Bookkeeping
import MessageFormat.Proofs.Completing

/-!
# Untranslated segments

What a session makes of segments that keep their texts, because they are not translated or because
they are translated by what they say already. Each construct is then sent through the segments and
comes back with its own branches (`BatchUnit.routed_kept`), of which the first with each key are
written. Completing a plural keeps no others anyway, so only a select shows the difference:
`Pattern.withoutRepeats` makes it in the message, and the rest is rebuilding without replacements.
-/

namespace MessageFormat

/-! ### Repeated keys -/

/-- The content of a select without the later options that repeat a key; any other content. -/
def Content.withoutRepeats : Content → Content
  | .select name options => .select name (firstPerKey options)
  | content => content

/-- The pattern whose selects have no repeated keys. -/
def Pattern.withoutRepeats (p : Pattern) : Pattern :=
  { p with elements := p.elements.map fun e => { e with content := e.content.withoutRepeats } }

/-- The text that a message is rebuilt to without replacements, but for repeated keys of selects; a
text that is no message stays as it is. -/
def untranslated (o : Options) (text : String) : String :=
  match parse text with
  | .ok m => rebuild m.toPattern.withoutRepeats .empty o
  | .error _ => text

/-- The translation of each segment by its own text. -/
def ownTexts (segments : List Segment) (id : String) : Option String :=
  (segments.find? fun s => s.id == id).map (·.text)

/-- The segments are left as they are. -/
def Keeps (mapping : String → Option String) (segments : List Segment) : Prop :=
  ∀ s ∈ segments, (mapping s.id).getD s.text = s.text

/-- Segments with distinct identifiers have their own texts. -/
theorem ownTexts_of_mem {segments : List Segment} (hids : (segments.map (·.id)).Nodup)
    {s : Segment} (h : s ∈ segments) : ownTexts segments s.id = some s.text := by
  have hfind : segments.find? (fun s' => s'.id == s.id) = some s := by
    cases hfound : segments.find? fun s' => s'.id == s.id with
    | none => exact absurd (List.find?_eq_none.1 hfound s h) (by simp)
    | some s' =>
        have hid := List.find?_some hfound
        rw [beq_iff_eq] at hid
        rw [List.inj_on_of_nodup_map hids (List.mem_of_find?_eq_some hfound) h hid]
  rw [ownTexts, hfind]
  rfl

/-! ### Rebuilt units -/

variable {u : BatchUnit} {p : Pattern} {mapping : String → Option String} {i : Nat} {e : Element}
  {o : Options}

/-- Completing a plural keeps the first variant of each key only. -/
theorem Options.complete_firstPerKey (ho : o.completePlurals = true) (kind : Plural.Kind)
    (variants : List Branch) :
    o.complete kind (firstPerKey variants) = o.complete kind variants := by
  rw [complete, complete, if_pos ho, if_pos ho]
  exact Plural.completeFor_congr (firstPerKey_firstPerKey variants)

/-- The branches of an element come back when their segments are left as they are. -/
theorem BatchUnit.routed_kept (hu : u.segments.map (·.toFragment) = p.fragments)
    (he : p.elements[i]? = some e) (h : Keeps mapping u.segments) :
    u.routed mapping i = e.content.branches := by
  rw [← Pattern.branches_fragments he, ← hu, List.filterMap_map]
  refine List.filterMap_congr fun s hs => ?_
  rw [h s hs]
  rfl

/-- An element whose segments are left as they are is rebuilt as without replacements. -/
theorem BatchUnit.rebuildElement_kept (ho : o.completePlurals = true)
    (hu : u.segments.map (·.toFragment) = p.fragments) (he : p.elements[i]? = some e)
    (h : Keeps mapping u.segments) :
    rebuildElement p (Session.collect u.segments mapping) o i e =
      rebuildElement p.withoutRepeats .empty o i
        { e with content := e.content.withoutRepeats } := by
  have hrouted := routed_kept hu he h
  obtain ⟨content, start, stop⟩ := e
  cases content with
  | text value =>
      have htext := Session.text_collect_eq_nil u.segments fun s hs _ => h s hs
      simp only [rebuildElement, htext]
      rfl
  | argument name type style => rfl
  | plural name offset variants =>
      simp only [rebuildElement, variantsFor_eq _ hu he rfl, hrouted, Content.branches,
        mergeVariants_eq _ rfl, Options.complete_firstPerKey ho]
      rfl
  | ordinal name variants =>
      simp only [rebuildElement, variantsFor_eq _ hu he rfl, hrouted, Content.branches,
        mergeVariants_eq _ rfl, Options.complete_firstPerKey ho]
      rfl
  | select name options =>
      simp only [rebuildElement, optionsFor_eq _ hu he rfl, hrouted, Content.branches,
        mergeOptions_eq rfl]
      rfl

/-- A message whose segments are left as they are is rebuilt as without replacements. -/
theorem BatchUnit.rebuild_kept (ho : o.completePlurals = true)
    (hu : u.segments.map (·.toFragment) = p.fragments) (h : Keeps mapping u.segments) :
    rebuild p (Session.collect u.segments mapping) o = rebuild p.withoutRepeats .empty o := by
  have hpieces : rebuiltPieces p (Session.collect u.segments mapping) o =
      rebuiltPieces p.withoutRepeats .empty o := by
    refine List.ext_getElem? fun i => ?_
    rw [rebuiltPieces, rebuiltPieces, List.getElem?_mapIdx, List.getElem?_mapIdx,
      Pattern.withoutRepeats, List.getElem?_map, Option.map_map]
    cases he : p.elements[i]? with
    | none => rfl
    | some e => exact congrArg some (rebuildElement_kept ho hu he h)
  rw [rebuild, rebuild, hpieces]

/-- A unit whose segments are left as they are becomes the untranslated text. -/
theorem Session.rebuildUnit_kept (ho : o.completePlurals = true) {id text : String}
    (h : Keeps mapping (readUnit id text).1.segments) :
    rebuildUnit o (readUnit id text).1 mapping = untranslated o text := by
  have hmessage := message_readUnit id text
  rw [untranslated, rebuildUnit]
  cases hparse : parse text with
  | ok m =>
      rw [hparse] at hmessage
      simp only [hmessage, Except.toOption]
      exact BatchUnit.rebuild_kept ho (fragments_readUnit hmessage) h
  | error error =>
      rw [hparse] at hmessage
      obtain ⟨s, hsegments, htext⟩ := segments_of_no_message hmessage
      have hkept := h s (by rw [hsegments]; exact List.mem_cons_self)
      simp only [hmessage, Except.toOption, hsegments, source_readUnit]
      rw [← htext, hkept]

/-! ### Sessions -/

/-- Entries with distinct keys are put one after another. -/
theorem Entries.ofPairs_eq_self {κ ν : Type} [DecidableEq κ] {pairs : List (κ × ν)}
    (h : (pairs.map (·.1)).Nodup) : ofPairs pairs = pairs := by
  have hput : ∀ (es : Entries κ ν) (key : κ) (value : ν), key ∉ es.map (·.1) →
      es.put key value = es ++ [(key, value)] := by
    intro es key value hkey
    induction es with
    | nil => rfl
    | cons entry es ih =>
        rw [List.map_cons, List.mem_cons, not_or] at hkey
        rw [put, if_neg fun heq => hkey.1 heq.symm, ih hkey.2, List.cons_append]
  induction pairs using List.reverseRecOn with
  | nil => rfl
  | append_singleton pairs pair ih =>
      rw [List.map_append, List.nodup_append] at h
      rw [ofPairs_append_singleton, ih h.1, hput]
      exact fun hmem => h.2.2 _ hmem _ List.mem_cons_self rfl

/-- The calls of a session do not change its options. -/
theorem Session.Run.options_eq {start s : Session} {calls : List Call} {made : List BatchUnit}
    (h : Run start calls made s) : s.options = start.options := by
  induction h with
  | start => rfl
  | prepare texts _ ih => exact ih
  | apply mapping _ _ ih => exact ih

/-- The results of a batch whose segments are left as they are. -/
theorem Session.apply_kept {s s' : Session} {texts : Entries String String}
    (ho : s'.options.completePlurals = true) (hids : (texts.map (·.1)).Nodup)
    (h : Keeps mapping ((s.prepare texts).2.value.flatMap (·.segments))) :
    (s'.apply (s.prepare texts).2.value mapping).2.value =
      texts.map fun entry => (entry.1, untranslated s'.options entry.2) := by
  have hresults : ((s.prepare texts).2.value.map fun u =>
      (u.id, rebuildUnit s'.options u mapping)) =
        texts.map fun entry => (entry.1, untranslated s'.options entry.2) := by
    rw [units_prepare, List.map_map]
    refine List.map_congr_left fun entry hentry => ?_
    have hkept : Keeps mapping (readUnit entry.1 entry.2).1.segments := by
      intro segment hsegment
      refine h segment (List.mem_flatMap.2 ⟨_, ?_, hsegment⟩)
      exact mem_prepare.2 ⟨entry.1, entry.2, hentry, rfl⟩
    show (_, _) = (_, _)
    rw [id_readUnit, rebuildUnit_kept ho hkept]
  show Entries.ofPairs _ = _
  rw [hresults]
  exact Entries.ofPairs_eq_self (by rwa [List.map_map])

/-- Segments that are not translated, or are translated by their own texts, change nothing: each
message of a batch is rebuilt as without replacements, apart from options of a select that repeat a
key, and each other text stays as it is. -/
theorem Session.apply_untranslated (s : Session) {s' : Session} {texts : Entries String String}
    {language : String} {options : Options} {verbose debug : Bool} {calls : List Call}
    {made : List BatchUnit} (hrun : Run (.start language options verbose debug) calls made s')
    (hids : (texts.map (·.1)).Nodup) :
    let units := (s.prepare texts).2.value
    let segments := units.flatMap (·.segments)
    let expected := texts.map fun entry => (entry.1, untranslated s'.options entry.2)
    (s'.apply units fun _ => none).2.value = expected ∧
      (s'.apply units (ownTexts segments)).2.value = expected ∧
      (∀ segment ∈ segments, ownTexts segments segment.id = some segment.text) ∧
      ∀ mapping : String → Option String,
        (∀ segment ∈ segments,
          mapping segment.id = none ∨ mapping segment.id = some segment.text) →
        (s'.apply units mapping).2.value = expected := by
  intro units segments expected
  have ho : s'.options.completePlurals = true := by
    rw [hrun.options_eq]
    rfl
  have hown : ∀ segment ∈ segments, ownTexts segments segment.id = some segment.text :=
    fun segment hsegment => ownTexts_of_mem (nodup_ids s hids) hsegment
  have hkept : ∀ mapping : String → Option String,
      (∀ segment ∈ segments,
        mapping segment.id = none ∨ mapping segment.id = some segment.text) →
      (s'.apply units mapping).2.value = expected := by
    intro mapping h
    refine apply_kept ho hids fun segment hsegment => ?_
    rcases h segment hsegment with h | h <;> rw [h] <;> rfl
  exact ⟨hkept _ fun _ _ => .inl rfl, hkept _ fun segment hsegment => .inr (hown segment hsegment),
    hown, hkept⟩

/-- A repeated key of a select and a repeated category of a plural; the last text is no message. -/
theorem apply_untranslated_repeats :
    let texts : Entries String String :=
      [("u", "it''s \x7bg,select,a \x7bx\x7d a \x7by\x7d b \x7bz\x7d\x7d"),
        ("v", "\x7bn, plural, one \x7ba\x7d one \x7bb\x7d =1 \x7bc\x7d\x7d"), ("w", "\x7bn")]
    let s := Session.start "en" {} false false
    let units := (s.prepare texts).2.value
    let results : Entries String String :=
      [("u", "it''s \x7bg, select, a \x7bx\x7d b \x7bz\x7d\x7d"),
        ("v", "\x7bn, plural, =1 \x7bc\x7d one \x7ba\x7d other \x7ba\x7d\x7d"), ("w", "\x7bn")]
    (texts.map (·.1)).Nodup ∧ Session.Run s [] [] s ∧
      (s.apply units fun _ => none).2.value = results ∧
      (s.apply units (ownTexts (units.flatMap (·.segments)))).2.value = results := by
  intro texts s units results
  have hids : (texts.map (·.1)).Nodup := by decide
  have hexpected :
      (texts.map fun entry => (entry.1, untranslated s.options entry.2)) = results := by
    decide +kernel
  obtain ⟨hnone, hown, -⟩ := Session.apply_untranslated s .start hids
  exact ⟨hids, .start, hnone.trans hexpected, hown.trans hexpected⟩

end MessageFormat
