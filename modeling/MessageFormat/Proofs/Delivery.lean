import Mathlib.Data.List.Induction
import MessageFormat.Proofs.Balance
import MessageFormat.Proofs.Retexting
import MessageFormat.Proofs.Routing

/-!
# Translated branches

What a session makes of a message whose branches are translated by messages. The translated texts
are put between braces as they are, and a text that is a message by itself need not end at the
brace after it. This is all that can go wrong: the result is a message with the translated branches
exactly if each of them is read back whole (`ReadsBack`).
-/

namespace MessageFormat

open Grammar

/-! ### Texts between braces -/

/-- The text is read back whole when a closing brace is put after it. -/
def ReadsBack (text : String) : Prop :=
  (Cursor.ofString (text ++ "\x7d")).readBalanced.1 = some text

/-- Reading back can be tried. -/
instance (text : String) : Decidable (ReadsBack text) :=
  inferInstanceAs (Decidable (_ = _))

/-- The texts that are read back are the enclosed ones of the grammar. -/
theorem readsBack_iff {text : String} : ReadsBack text ↔ Enclosed 0 text.toList := by
  constructor
  · intro h
    exact Cursor.enclosed_of_readBalanced (Prod.ext h rfl)
  · intro h
    obtain ⟨gs, hspell, hclosing⟩ := closing_of_enclosed h []
    have hrest : (Cursor.ofString (text ++ "\x7d")).rest = text.toList ++ ['}'] := by
      show (text ++ "\x7d").toList.drop 0 = text.toList ++ ['}']
      rw [String.toList_append]
      rfl
    rw [← hrest] at hclosing
    rw [ReadsBack, Cursor.readBalanced_of_closing hclosing, hspell, String.ofList_toList]

/-! ### Translated contents -/

/-- The content of a construct without its branches; any other content. -/
def Content.heading : Content → Content
  | .plural name offset _ => .plural name offset []
  | .ordinal name _ => .ordinal name []
  | .select name _ => .select name []
  | content => content

/-- The content of a construct with the first of the given branches for each key, and with what
its language requires; any other content. -/
def Content.translated (o : Options) (branches : List Branch) : Content → Content
  | .plural name offset _ =>
      .plural name (offset.filter (0 < ·)) (o.complete .cardinal (firstPerKey branches))
  | .ordinal name _ => .ordinal name (o.complete .ordinal (firstPerKey branches))
  | .select name _ => .select name (firstPerKey branches)
  | content => content

variable {o : Options} {c : Content} {branches source : List Branch} {b : Branch}

/-- Translating changes the branches, and leaves out an offset that is not written. -/
theorem Content.heading_translated (o : Options) (branches : List Branch) (c : Content) :
    (c.translated o branches).heading = c.canonical.heading := by
  cases c <;> rfl

/-- Translating makes no text of a placeholder. -/
theorem Content.isPlaceholder_translated (o : Options) (branches : List Branch) (c : Content) :
    (c.translated o branches).isPlaceholder = c.isPlaceholder := by
  cases c <;> rfl

/-- Under a key of the construct, the first of the given branches is the only one. -/
theorem Content.branchesWith_translated (hc : b.key ∈ c.branches.map (·.key))
    (h : branchFor b.key branches = some b) :
    branchesWith b.key (c.translated o branches).branches = [b] := by
  cases c with
  | text value => cases hc
  | argument name type style => cases hc
  | plural name offset variants => exact Options.branchesWith_complete h
  | ordinal name variants => exact Options.branchesWith_complete h
  | select name options =>
      show branchesWith b.key (firstPerKey branches) = [b]
      rw [branchesWith_firstPerKey, h]
      rfl

/-- Completed variants are messages when the variants are. -/
theorem Options.isMessage_complete {kind : Plural.Kind}
    (h : ∀ b ∈ branches, isMessage b.text = true) :
    ∀ b ∈ o.complete kind branches, isMessage b.text = true := by
  intro b hb
  rcases Options.mem_complete hb with hb | hb
  · exact h b hb
  · rcases hb.text with htext | ⟨v, hv, htext⟩
    · rw [htext, isMessage_empty]
    · rw [htext, h v hv]

/-- A translated construct has messages as branches when the given branches are messages. -/
theorem Content.isMessage_translated (h : ∀ b ∈ branches, isMessage b.text = true) :
    ∀ b ∈ (c.translated o branches).branches, isMessage b.text = true := by
  have hfirst : ∀ b ∈ firstPerKey branches, isMessage b.text = true :=
    fun b hb => h b (mem_of_mem_firstPerKey hb)
  cases c with
  | text value => simp [translated, Content.branches]
  | argument name type style => simp [translated, Content.branches]
  | plural name offset variants => exact Options.isMessage_complete hfirst
  | ordinal name variants => exact Options.isMessage_complete hfirst
  | select name options => exact hfirst

/-! ### Translated branches can be written -/

/-- The name of a category can be written before a blank. -/
theorem Plural.Category.key_name (c : Plural.Category) : Key .category c.name.toList [' '] := by
  refine .name ⟨?_, ?_, forall_head?_cons rfl⟩
  · cases c <;> exact List.cons_ne_nil _ _
  · cases c <;> exact List.all_eq_true.1 rfl

/-- Branches with the keys of the source can be written when they are enclosed. -/
theorem printable_firstPerKey {selector : Selector} (hsource : ∀ b ∈ source, b.Printable selector)
    (hkeys : branches.map (·.key) = source.map (·.key))
    (htexts : ∀ b ∈ firstPerKey branches, Enclosed 0 b.text.toList) :
    ∀ b ∈ firstPerKey branches, b.Printable selector := by
  intro b hb
  have hkey : b.key ∈ source.map (·.key) := by
    rw [← hkeys]
    exact List.mem_map_of_mem (mem_of_mem_firstPerKey hb)
  obtain ⟨b', hb', hsame⟩ := List.mem_map.1 hkey
  refine ⟨?_, htexts b hb⟩
  rw [← hsame]
  exact (hsource b' hb').key

/-- Completed variants can be written when the variants can. -/
theorem Options.printable_complete {kind : Plural.Kind}
    (h : ∀ b ∈ branches, b.Printable .category) :
    ∀ b ∈ o.complete kind branches, b.Printable .category := by
  intro b hb
  rcases Options.mem_complete hb with hb | hb
  · exact h b hb
  · obtain ⟨category, hkey⟩ := hb.key
    refine ⟨hkey ▸ category.key_name, ?_⟩
    rcases hb.text with htext | ⟨v, hv, htext⟩
    · rw [htext]
      exact .nil
    · rw [htext]
      exact (h v hv).text

/-- A construct that can be written can be written with translated branches that are enclosed. -/
theorem Content.Printable.translated (h : c.canonical.Printable)
    (hkeys : branches.map (·.key) = c.branches.map (·.key))
    (htexts : ∀ b ∈ firstPerKey branches, Enclosed 0 b.text.toList) :
    (c.translated o branches).Printable := by
  cases c with
  | text value => exact h
  | argument name type style => exact h
  | plural name offset variants =>
      cases h with
      | plural hname hoffset hvariants =>
          exact .plural hname hoffset
            (Options.printable_complete (printable_firstPerKey hvariants hkeys htexts))
  | ordinal name variants =>
      cases h with
      | ordinal hname hvariants =>
          exact .ordinal hname
            (Options.printable_complete (printable_firstPerKey hvariants hkeys htexts))
  | select name options =>
      cases h with
      | select hname hoptions =>
          exact .select hname (printable_firstPerKey hoptions hkeys htexts)

/-! ### Rebuilt units -/

variable {u : BatchUnit} {m : Message} {mapping : String → Option String}

/-- Rebuilding with collected segments translates each element with its routed branches. -/
theorem BatchUnit.Translates.rebuilt_eq (h : u.Translates mapping) {p : Pattern}
    (hu : u.segments.map (·.toFragment) = p.fragments) {i : Nat} {e : Element}
    (he : p.elements[i]? = some e) (o : Options) :
    e.content.rebuilt (Session.collect u.segments mapping) o i =
      some (e.content.translated o (u.routed mapping i)) := by
  have hkeys := (keys_routed mapping hu he).symm
  have hvariants := variantsFor_eq mapping hu he
  have hoptions := optionsFor_eq mapping hu he
  cases hcontent : e.content with
  | text value =>
      rw [Content.rebuilt, Session.text_collect_eq_nil u.segments h.getD_eq]
      rfl
  | argument name type style => rfl
  | plural name offset variants =>
      rw [hcontent] at hkeys hvariants
      change variants.map (·.key) = _ at hkeys
      rw [Content.rebuilt, hvariants rfl, mergeVariants_eq _ hkeys]
      rfl
  | ordinal name variants =>
      rw [hcontent] at hkeys hvariants
      change variants.map (·.key) = _ at hkeys
      rw [Content.rebuilt, hvariants rfl, mergeVariants_eq _ hkeys]
      rfl
  | select name options =>
      rw [hcontent] at hkeys hoptions
      change options.map (·.key) = _ at hkeys
      rw [Content.rebuilt, hoptions rfl, mergeOptions_eq hkeys]
      rfl

/-- All elements are translated in their places. -/
theorem BatchUnit.Translates.rebuiltContents_eq (h : u.Translates mapping) {p : Pattern}
    (hu : u.segments.map (·.toFragment) = p.fragments) (o : Options) :
    rebuiltContents (Session.collect u.segments mapping) o 0 p.elements =
      p.elements.mapIdx fun i e => e.content.translated o (u.routed mapping i) := by
  rw [rebuiltContents, List.mapIdx_eq_zipIdx_map, ← List.filterMap_eq_map']
  refine List.filterMap_congr fun x hx => ?_
  exact h.rebuilt_eq hu (List.mem_zipIdx_iff_getElem?.1 hx) o

/-- A branch that has a translation is a branch of the element. -/
theorem BatchUnit.exists_of_translation? {p : Pattern}
    (hu : u.segments.map (·.toFragment) = p.fragments) {i : Nat} {key text : String}
    (h : u.translation? mapping i key = some text) :
    ∃ e, p.elements[i]? = some e ∧ key ∈ e.content.branches.map (·.key) := by
  obtain ⟨s, hs, -⟩ := Option.bind_eq_some_iff.1 h
  have hkey := List.find?_some hs
  rw [beq_iff_eq] at hkey
  obtain ⟨j, e, he, hfragment⟩ := exists_of_mem_segments hu (List.mem_of_find?_eq_some hs)
  have hmem : key ∈ (e.content.fragments j).filterMap (·.origin.keyAt i) :=
    List.mem_filterMap.2 ⟨s.toFragment, hfragment, hkey⟩
  rw [Content.keys_fragments] at hmem
  split at hmem
  · next hindex =>
    subst hindex
    exact ⟨e, he, hmem⟩
  · cases hmem

/-- The branches of content that can be written are enclosed. -/
theorem Content.Printable.enclosed (h : c.Printable) :
    ∀ b ∈ c.branches, Enclosed 0 b.text.toList := by
  cases h with
  | simple => simp [branches]
  | typed => simp [branches]
  | styled => simp [branches]
  | plural _ _ hvariants => exact fun b hb => (hvariants b hb).text
  | ordinal _ hvariants => exact fun b hb => (hvariants b hb).text
  | select _ hoptions => exact fun b hb => (hoptions b hb).text

/-- The branches of a message are read back. -/
theorem readsBack_of_parse {text : String} (h : parse text = .ok m) {e : Element}
    (he : e ∈ m.elements) (hb : b ∈ e.content.branches) : ReadsBack b.text := by
  have hplace : e.content.isPlaceholder = true ∧ e.content.endsInApostrophe = false := by
    cases hcontent : e.content with
    | text value =>
        rw [hcontent] at hb
        cases hb
    | argument name type style =>
        rw [hcontent] at hb
        cases hb
    | plural name offset variants => exact ⟨rfl, rfl⟩
    | ordinal name variants => exact ⟨rfl, rfl⟩
    | select name options => exact ⟨rfl, rfl⟩
  obtain ⟨s, hrule⟩ := (elements_of_parse h).placeholder_of_mem he hplace.1
  refine readsBack_iff.2 ((printable_of_placeholder hrule hplace.2).enclosed b ?_)
  rwa [branches_canonical]

/-! ### Sessions -/

/-- Each prepared unit is rebuilt under its identifier. -/
theorem Session.get?_apply_prepare (s s' : Session) {texts : Entries String String}
    {id text : String} (hids : (texts.map (·.1)).Nodup) (h : (id, text) ∈ texts)
    (mapping : String → Option String) :
    (s'.apply (s.prepare texts).2.value mapping).2.value.get? id =
      some (rebuildUnit s'.options (readUnit id text).1 mapping) := by
  have hu : (readUnit id text).1 ∈ (s.prepare texts).2.value := mem_prepare.2 ⟨id, text, h, rfl⟩
  have hresult := get?_apply (s := s') hu (fun v hv heq => eq_of_id_eq hids hv hu heq) mapping
  rwa [id_readUnit] at hresult

/-- The elements are those of the source, and each branch of the source has its translated text as
its only text. -/
structure BatchUnit.Delivered (u : BatchUnit) (mapping : String → Option String)
    (source result : Message) : Prop where
  /-- Nothing but the branches has changed. -/
  headings : result.elements.map (·.content.heading) =
    source.elements.map (·.content.canonical.heading)
  /-- The branches have been translated. -/
  branches : ∀ (i : Nat) (e : Element), source.elements[i]? = some e →
    ∀ b ∈ e.content.branches, ∃ text, u.translation? mapping i b.key = some text ∧
      ∃ e', result.elements[i]? = some e' ∧
        branchesWith b.key e'.content.branches = [⟨b.key, text⟩]

/-- Of the branches of an element, each key has a translation. -/
theorem BatchUnit.Translates.exists_translation? (h : u.Translates mapping) {p : Pattern}
    (hu : u.segments.map (·.toFragment) = p.fragments) {i : Nat} {e : Element}
    (he : p.elements[i]? = some e) (hb : b ∈ e.content.branches) :
    ∃ b', branchFor b.key (u.routed mapping i) = some b' ∧
      u.translation? mapping i b.key = some b'.text := by
  have hkey : b.key ∈ (u.routed mapping i).map (·.key) := by
    rw [keys_routed mapping hu he]
    exact List.mem_map_of_mem hb
  obtain ⟨b', hb'⟩ := exists_branchFor hkey
  refine ⟨b', hb', ?_⟩
  rw [h.translation?_eq, hb']
  rfl

/-- The branches that are written are enclosed when the translations are read back. -/
theorem BatchUnit.Translates.enclosed_routed (h : u.Translates mapping)
    (hread : ∀ i key text, u.translation? mapping i key = some text → ReadsBack text) (i : Nat) :
    ∀ b ∈ firstPerKey (u.routed mapping i), Enclosed 0 b.text.toList := by
  intro b hb
  have hfirst := branchFor_of_mem_firstPerKey hb
  refine readsBack_iff.1 (hread i b.key b.text ?_)
  rw [h.translation?_eq, hfirst]
  rfl

/-- The collected segments can be written when the translations are read back. -/
theorem BatchUnit.Translates.writable (h : u.Translates mapping)
    (hu : u.segments.map (·.toFragment) = m.fragments) {text : String} (hm : parse text = .ok m)
    (hstyle : ∀ e ∈ m.elements, e.content.endsInApostrophe = false)
    (hread : ∀ i key text, u.translation? mapping i key = some text → ReadsBack text)
    (o : Options) : Writable (Session.collect u.segments mapping) o 0 m.elements := by
  refine ⟨?_, ?_⟩
  · rw [Session.text_collect_eq_nil u.segments h.getD_eq]
    simp
  · intro c hc hplace
    rw [h.rebuiltContents_eq hu o] at hc
    obtain ⟨i, hi, rfl⟩ := List.mem_mapIdx.1 hc
    rw [Content.isPlaceholder_translated] at hplace
    have hmem := List.getElem_mem hi
    obtain ⟨s, hrule⟩ := (elements_of_parse hm).placeholder_of_mem hmem hplace
    -- Only the first branch of each key is written, so only its translation has to be read back.
    exact (printable_of_placeholder hrule (hstyle _ hmem)).translated
      (keys_routed mapping hu (List.getElem?_eq_getElem hi)) (h.enclosed_routed hread i)

/-- A message whose elements are the translated ones has the translations. -/
theorem BatchUnit.Translates.delivered (h : u.Translates mapping)
    (hu : u.segments.map (·.toFragment) = m.fragments) {o : Options} {m' : Message}
    (hcontents : m'.elements.map (·.content) =
      m.elements.mapIdx fun i e => e.content.translated o (u.routed mapping i)) :
    u.Delivered mapping m m' where
  headings := by
    have hfirst : (fun x : Element × Nat =>
        (x.1.content.translated o (u.routed mapping x.2)).heading) =
          (fun e : Element => e.content.canonical.heading) ∘ Prod.fst := by
      funext x
      exact Content.heading_translated o (u.routed mapping x.2) x.1.content
    calc
      _ = (m'.elements.map (·.content)).map Content.heading := by
        rw [List.map_map]
        rfl
      _ = m.elements.zipIdx.map fun x =>
            (x.1.content.translated o (u.routed mapping x.2)).heading := by
        rw [hcontents, List.mapIdx_eq_zipIdx_map, List.map_map]
        rfl
      _ = m.elements.map (·.content.canonical.heading) := by
        rw [hfirst, ← List.map_map, List.zipIdx_map_fst]
  branches := by
    intro i e he b hb
    obtain ⟨b', hb', htext⟩ := h.exists_translation? hu he hb
    have hplaces := congrArg (fun contents => contents[i]?) hcontents
    simp only [List.getElem?_map, List.getElem?_mapIdx, he, Option.map_some] at hplaces
    obtain ⟨e', he', hcontent⟩ := Option.map_eq_some_iff.1 hplaces
    have hkey := key_of_branchFor hb'
    refine ⟨b'.text, htext, e', he', ?_⟩
    rw [hcontent, ← hkey]
    rw [← hkey] at hb'
    refine Content.branchesWith_translated ?_ hb'
    rw [hkey]
    exact List.mem_map_of_mem hb

/-- What is rebuilt from translations that are read back is a message with the translations. -/
theorem BatchUnit.Translates.parse_rebuild (h : u.Translates mapping)
    (hu : u.segments.map (·.toFragment) = m.fragments) {text : String} (hm : parse text = .ok m)
    (hstyle : ∀ e ∈ m.elements, e.content.endsInApostrophe = false)
    (hread : ∀ i key text, u.translation? mapping i key = some text → ReadsBack text)
    (o : Options) :
    ∃ m', parse (rebuild m.toPattern (Session.collect u.segments mapping) o) = .ok m' ∧
      u.Delivered mapping m m' := by
  have hcontents := h.rebuiltContents_eq hu o
  have hw := h.writable hu hm hstyle hread o
  have hbranches : ∀ c ∈ rebuiltContents (Session.collect u.segments mapping) o 0 m.elements,
      ∀ b ∈ c.branches, isMessage b.text = true := by
    intro c hc
    rw [hcontents] at hc
    obtain ⟨i, hi, rfl⟩ := List.mem_mapIdx.1 hc
    exact Content.isMessage_translated fun b hb => h.isMessage_of_mem_routed hb
  obtain ⟨elements', hsame, hparse, -⟩ := MessageFormat.parse_rebuild hm hw hbranches
  rw [hcontents] at hsame
  exact ⟨_, hparse, h.delivered hu hsame⟩

/-- A message with the translations of all branches has translations that are read back. -/
theorem BatchUnit.Delivered.readsBack {result : String} {m' : Message}
    (h : u.Delivered mapping m m') (hu : u.segments.map (·.toFragment) = m.fragments)
    (hparse : parse result = .ok m') {i : Nat} {key text : String}
    (htext : u.translation? mapping i key = some text) : ReadsBack text := by
  obtain ⟨e, he, hkey⟩ := exists_of_translation? hu htext
  obtain ⟨b, hb, rfl⟩ := List.mem_map.1 hkey
  obtain ⟨text', htext', e', he', hbranches⟩ := h.branches i e he b hb
  rw [htext] at htext'
  cases htext'
  have hmem : ⟨b.key, text⟩ ∈ branchesWith b.key e'.content.branches := by
    rw [hbranches]
    exact List.mem_cons_self
  exact readsBack_of_parse (b := ⟨b.key, text⟩) hparse (List.mem_of_getElem? he')
    (List.mem_filter.1 hmem).1

/-- A message whose branches are translated by messages becomes a message with the translated
branches exactly if each of these is read back. -/
theorem parse_apply_iff (s s' : Session) {texts : Entries String String} {id text : String}
    {m : Message} {mapping : String → Option String} (hids : (texts.map (·.1)).Nodup)
    (htext : (id, text) ∈ texts) (hm : parse text = .ok m)
    (hstyle : ∀ e ∈ m.elements, e.content.endsInApostrophe = false)
    (hmapping : (Session.readUnit id text).1.Translates mapping) :
    let u := (Session.readUnit id text).1
    ∃ result, (s'.apply (s.prepare texts).2.value mapping).2.value.get? id = some result ∧
      ((∃ m', parse result = .ok m' ∧ u.Delivered mapping m m') ↔
        ∀ i key translated, u.translation? mapping i key = some translated →
          ReadsBack translated) := by
  intro u
  have hunit : u = BatchUnit.segment { id, source := text, message := some m } :=
    Session.readUnit_eq hm
  have hu : u.segments.map (·.toFragment) = m.fragments := by
    rw [hunit, BatchUnit.fragments_segment]
    rfl
  have hrebuilt : Session.rebuildUnit s'.options u mapping =
      rebuild m.toPattern (Session.collect u.segments mapping) s'.options := by
    rw [hunit]
    rfl
  refine ⟨_, Session.get?_apply_prepare s s' hids htext mapping, ?_⟩
  rw [hrebuilt]
  constructor
  · rintro ⟨m', hparse, hdelivered⟩ i key translated htranslated
    exact hdelivered.readsBack hu hparse htranslated
  · intro hread
    exact hmapping.parse_rebuild hu hm hstyle hread s'.options

/-- An apostrophe inside a translation is read back with the rest of it. -/
theorem parse_apply_inner_apostrophe :
    let text := "\x7bn, plural, one \x7ba\x7d other \x7bb\x7d\x7d"
    let mapping : String → Option String := fun segment =>
      if segment = "u#seg0" then some "l'a" else if segment = "u#seg1" then some "x" else none
    let s := Session.start "en" {} false false
    let u := (Session.readUnit "u" text).1
    ∃ m, parse text = .ok m ∧
      ∃ result, (s.apply (s.prepare [("u", text)]).2.value mapping).2.value.get? "u" =
          some result ∧
        ∃ m', parse result = .ok m' ∧ u.Delivered mapping m m' := by
  intro text mapping s u
  let m : Message :=
    ⟨⟨text, [⟨.plural "n" none [⟨"one", "a"⟩, ⟨"other", "b"⟩], 0, 30⟩]⟩, ["n"], true, false⟩
  have hm : parse text = .ok m := by decide +kernel
  have htranslates : u.Translates mapping := ⟨by decide +kernel, by decide +kernel⟩
  have hread : ∀ segment ∈ u.segments, ∀ translated ∈ mapping segment.id, ReadsBack translated := by
    decide +kernel
  have hids : (([("u", text)] : Entries String String).map (·.1)).Nodup := by decide
  obtain ⟨result, hresult, hiff⟩ :=
    parse_apply_iff s s hids List.mem_cons_self hm (by decide) htranslates
  refine ⟨m, hm, result, hresult, hiff.2 ?_⟩
  intro i key translated htranslated
  obtain ⟨segment, hsegment, htext⟩ := Option.bind_eq_some_iff.1 htranslated
  exact hread segment (List.mem_of_find?_eq_some hsegment) translated htext

/-- An apostrophe at the end of a translation is a message, but quotes the brace after it. -/
theorem apply_final_apostrophe :
    let text := "\x7bn, plural, one \x7ba\x7d other \x7bb\x7d\x7d"
    let mapping : String → Option String := fun segment =>
      if segment = "u#seg0" then some "l'" else if segment = "u#seg1" then some "x" else none
    let s := Session.start "en" {} false false
    (∃ m, parse text = .ok m ∧ ∀ e ∈ m.elements, e.content.endsInApostrophe = false) ∧
      (Session.readUnit "u" text).1.Translates mapping ∧
      ∃ result, (s.apply (s.prepare [("u", text)]).2.value mapping).2.value.get? "u" =
          some result ∧
        isMessage result = false := by
  intro text mapping s
  let m : Message :=
    ⟨⟨text, [⟨.plural "n" none [⟨"one", "a"⟩, ⟨"other", "b"⟩], 0, 30⟩]⟩, ["n"], true, false⟩
  have hm : parse text = .ok m := by decide +kernel
  have hresult : (s.apply (s.prepare [("u", text)]).2.value mapping).2.value.get? "u" =
      some "\x7bn, plural, one \x7bl'\x7d other \x7bx\x7d\x7d" := by decide +kernel
  exact ⟨⟨m, hm, by decide⟩, ⟨by decide +kernel, by decide +kernel⟩, _, hresult,
    by decide +kernel⟩

end MessageFormat
