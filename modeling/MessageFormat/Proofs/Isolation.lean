import MessageFormat.Proofs.Routing

/-!
# Isolated segments

A translated segment reaches its own element and nothing else. Segments are told apart by their
identifiers, whatever the identifiers of their units are (`Segment.id_inj`). A unit is rebuilt piece
by piece, and `BatchUnit.pieces_congr` says that a piece depends on the segments of its element
only; so what `Session.apply_isolated` says of two runs needs nothing of the batches but the unit.
-/

namespace MessageFormat

/-! ### Identifiers -/

/-- The digits at the end of a text are all there is after a character that is no digit. -/
theorem takeWhile_isDigit_reverse {digits : List Char} (h : ∀ c ∈ digits, c.isDigit = true)
    {c : Char} (hc : c.isDigit = false) (before : List Char) :
    (before ++ c :: digits).reverse.takeWhile Char.isDigit = digits.reverse := by
  rw [List.reverse_append, List.reverse_cons, List.append_assoc,
    List.takeWhile_append_of_pos fun d hd => h d (List.mem_reverse.1 hd)]
  simp [hc]

/-- The identifier of a segment ends in its number, before which there is no digit. -/
theorem Segment.toList_id (s : Segment) :
    s.id.toList = (s.unit.toList ++ "#se".toList) ++ 'g' :: Nat.toDigits 10 s.order := by
  rw [id, Nat.toString_eq_repr, String.toList_append, String.toList_append, Nat.toList_repr,
    List.append_assoc, List.append_assoc]
  rfl

/-- Segments with the same identifier have the same place in the same unit. -/
theorem Segment.id_inj {s s' : Segment} (h : s.id = s'.id) :
    s.unit = s'.unit ∧ s.order = s'.order := by
  have hdigits : ∀ n : Nat, ∀ c ∈ Nat.toDigits 10 n, c.isDigit = true :=
    fun n c hc => Nat.isDigit_of_mem_toDigits (by decide) (by decide) hc
  have hlist := congrArg String.toList h
  rw [toList_id, toList_id] at hlist
  -- The units may end in anything, so the identifiers are compared from their ends.
  have hnumber : Nat.toDigits 10 s.order = Nat.toDigits 10 s'.order := by
    have hend := congrArg (fun cs => cs.reverse.takeWhile Char.isDigit) hlist
    simp only [takeWhile_isDigit_reverse (hdigits _) (show 'g'.isDigit = false from rfl)] at hend
    exact List.reverse_inj.1 hend
  rw [hnumber] at hlist
  constructor
  · exact String.toList_inj.1 (List.append_cancel_right (List.append_cancel_right hlist))
  · calc
      s.order = Nat.ofDigitChars 10 (Nat.toDigits 10 s.order) 0 :=
        Nat.ofDigitChars_ten_toDigits.symm
      _ = Nat.ofDigitChars 10 (Nat.toDigits 10 s'.order) 0 := by rw [hnumber]
      _ = s'.order := Nat.ofDigitChars_ten_toDigits

/-- The segments of a unit carry its identifier. -/
theorem Session.unit_of_mem_segments {id text : String} {s : Segment}
    (h : s ∈ (readUnit id text).1.segments) : s.unit = id := by
  have hunit : ∀ u : BatchUnit, s ∈ u.segment.segments → s.unit = u.id := by
    intro u hs
    obtain ⟨order, -, rfl⟩ := List.mem_mapIdx.1 hs
    rfl
  rw [readUnit] at h
  split at h <;> exact hunit _ h

/-- The segments of a unit are numbered. -/
theorem Session.order_segments (id text : String) :
    (readUnit id text).1.segments.Pairwise fun s s' => s.order ≠ s'.order := by
  have hunit : ∀ u : BatchUnit, u.segment.segments.Pairwise fun s s' => s.order ≠ s'.order := by
    intro u
    rw [BatchUnit.segment, List.pairwise_iff_getElem]
    intro i j hi hj hlt
    rw [List.getElem_mapIdx, List.getElem_mapIdx]
    exact Nat.ne_of_lt hlt
  rw [readUnit]
  split <;> exact hunit _

/-- No two segments of a batch have the same identifier. -/
theorem Session.nodup_ids (s : Session) {texts : Entries String String}
    (hids : (texts.map (·.1)).Nodup) :
    (((s.prepare texts).2.value.flatMap (·.segments)).map (·.id)).Nodup := by
  rw [units_prepare, List.flatMap_map, List.Nodup, List.pairwise_map, List.pairwise_flatMap]
  constructor
  · intro entry _
    exact (order_segments entry.1 entry.2).imp fun hne heq => hne (Segment.id_inj heq).2
  · rw [List.Nodup, List.pairwise_map] at hids
    refine hids.imp fun hne segment hsegment segment' hsegment' heq => hne ?_
    rw [← unit_of_mem_segments hsegment, ← unit_of_mem_segments hsegment']
    exact (Segment.id_inj heq).1

/-! ### Pieces -/

/-- The pieces that a unit becomes: one for each element of a message; an opaque text is a piece by
itself. -/
def BatchUnit.pieces (o : Options) (u : BatchUnit) (mapping : String → Option String) :
    List String :=
  match u.message with
  | some m => rebuiltPieces m.toPattern (Session.collect u.segments mapping) o
  | none => [(u.segments.head?.bind fun s => mapping s.id).getD u.source]

/-- A rebuilt unit consists of its pieces. -/
theorem Session.rebuildUnit_eq_join (o : Options) (u : BatchUnit)
    (mapping : String → Option String) :
    rebuildUnit o u mapping = String.join (u.pieces o mapping) := by
  rw [rebuildUnit, BatchUnit.pieces]
  cases u.message with
  | some m => rfl
  | none => cases u.segments <;> simp [String.join]

variable {u : BatchUnit} {p : Pattern} {mapping mapping' : String → Option String} {i : Nat}
  {e : Element}

/-- The branches of an element have texts that depend on its segments only. -/
theorem BatchUnit.routed_congr (h : ∀ s ∈ u.segments, s.origin.index? = some i →
    mapping s.id = mapping' s.id) : u.routed mapping i = u.routed mapping' i := by
  refine List.filterMap_congr fun s hs => ?_
  rw [Origin.keyAt]
  split
  · next hindex => rw [h s hs hindex]
  · rfl

/-- The text of an element is replaced by what depends on its segments only. -/
theorem Session.text_collect_congr {segments : List Segment} (h : ∀ s ∈ segments,
    s.origin.index? = some i → mapping s.id = mapping' s.id) :
    (collect segments mapping).text.get? i = (collect segments mapping').text.get? i := by
  induction segments using List.reverseRecOn with
  | nil => rfl
  | append_singleton segments s ih =>
      rw [collect_append, collect_append, text_route, text_route,
        ih fun s hs => h s (List.mem_append_left _ hs)]
      by_cases horigin : s.origin = .text i
      · rw [h s (List.mem_append_right _ List.mem_cons_self) (by rw [horigin]; rfl)]
      · simp [horigin]

/-- The piece that an element becomes depends on its segments only. -/
theorem BatchUnit.rebuildElement_congr (hu : u.segments.map (·.toFragment) = p.fragments)
    (he : p.elements[i]? = some e) (o : Options)
    (h : ∀ s ∈ u.segments, s.origin.index? = some i → mapping s.id = mapping' s.id) :
    rebuildElement p (Session.collect u.segments mapping) o i e =
      rebuildElement p (Session.collect u.segments mapping') o i e := by
  have hrouted := routed_congr h
  obtain ⟨content, start, stop⟩ := e
  cases content with
  | text value => simp only [rebuildElement, Session.text_collect_congr h]
  | argument name type style => rfl
  | plural name offset variants =>
      simp only [rebuildElement, variantsFor_eq _ hu he rfl, hrouted]
  | ordinal name variants =>
      simp only [rebuildElement, variantsFor_eq _ hu he rfl, hrouted]
  | select name options =>
      simp only [rebuildElement, optionsFor_eq _ hu he rfl, hrouted]

/-- The pieces of two runs agree at an element if it is an argument or the runs agree on its
segments. -/
theorem BatchUnit.pieces_congr {m : Message} (hm : u.message = some m)
    (hu : u.segments.map (·.toFragment) = m.fragments) (he : m.elements[i]? = some e) (o : Options)
    (h : (∃ name type style, e.content = .argument name type style) ∨
      ∀ s ∈ u.segments, s.origin.index? = some i → mapping s.id = mapping' s.id) :
    (u.pieces o mapping)[i]? = (u.pieces o mapping')[i]? := by
  simp only [pieces, hm, getElem?_rebuiltPieces he]
  rcases h with ⟨name, type, style, hargument⟩ | h
  · simp only [rebuildElement, hargument]
  · rw [rebuildElement_congr hu he o h]

/-! ### Runs -/

/-- The segments of a unit that is a message are its fragments. -/
theorem Session.fragments_readUnit {id text : String} {m : Message}
    (h : (readUnit id text).1.message = some m) :
    (readUnit id text).1.segments.map (·.toFragment) = m.fragments := by
  rw [message_readUnit] at h
  cases hparse : parse text with
  | error error =>
      rw [hparse] at h
      cases h
  | ok m' =>
      rw [hparse] at h
      cases h
      rw [readUnit_eq hparse, BatchUnit.fragments_segment]
      rfl

/-- A unit that is no message has one segment, the whole text. -/
theorem Session.segments_of_no_message {id text : String}
    (h : (readUnit id text).1.message = none) :
    ∃ s, (readUnit id text).1.segments = [s] ∧ s.text = text := by
  cases hparse : parse text with
  | ok m =>
      rw [message_readUnit, hparse] at h
      cases h
  | error error =>
      rw [readUnit_of_error hparse]
      exact ⟨_, rfl, rfl⟩

/-- Whatever else is in their batches, two runs make the same pieces of a unit wherever they agree
on its segments. Its text is made of its pieces, one for each element, and all segments of a batch
are told apart. -/
theorem Session.apply_isolated {s s' t t' : Session} {texts texts' : Entries String String}
    (hids : (texts.map (·.1)).Nodup) (hids' : (texts'.map (·.1)).Nodup)
    (ho : t.options = t'.options) {us us' : List BatchUnit}
    (hus : us ⊆ (s.prepare texts).2.value) (hus' : us' ⊆ (s'.prepare texts').2.value)
    {u u' : BatchUnit} (hu : u ∈ us) (hu' : u' ∈ us') (hid : u.id = u'.id)
    (hsource : u.source = u'.source) (mapping mapping' : String → Option String) :
    (((s.prepare texts).2.value.flatMap (·.segments)).map (·.id)).Nodup ∧
      (t.apply us mapping).2.value.get? u.id = some (String.join (u.pieces t.options mapping)) ∧
      (t'.apply us' mapping').2.value.get? u'.id =
        some (String.join (u'.pieces t'.options mapping')) ∧
      (∀ m, u.message = some m →
        (u.pieces t.options mapping).length = m.elements.length ∧
          ∀ i e, m.elements[i]? = some e →
            ((∃ name type style, e.content = .argument name type style) ∨
              ∀ segment ∈ u.segments, segment.origin.index? = some i →
                mapping segment.id = mapping' segment.id) →
            (u.pieces t.options mapping)[i]? = (u'.pieces t'.options mapping')[i]?) ∧
      (u.message = none → ∃ segment, u.segments = [segment] ∧ segment.text = u.source ∧
        u.pieces t.options mapping = [(mapping segment.id).getD u.source]) := by
  have hread := eq_readUnit (hus hu)
  -- The batches have the unit in common, because it is read from its text alone.
  obtain rfl : u = u' := by
    rw [hread, hid, hsource]
    exact (eq_readUnit (hus' hu')).symm
  refine ⟨nodup_ids s hids, ?_, ?_, ?_, ?_⟩
  · rw [← rebuildUnit_eq_join]
    exact get?_apply hu (fun v hv => eq_of_id_eq hids (hus hv) (hus hu)) mapping
  · rw [← rebuildUnit_eq_join]
    exact get?_apply hu' (fun v hv => eq_of_id_eq hids' (hus' hv) (hus' hu')) mapping'
  · intro m hm
    have hsegments : u.segments.map (·.toFragment) = m.fragments := by
      rw [hread] at hm ⊢
      exact fragments_readUnit hm
    refine ⟨?_, fun i e he h => ?_⟩
    · simp only [BatchUnit.pieces, hm, rebuiltPieces, List.length_mapIdx]
    · rw [← ho]
      exact BatchUnit.pieces_congr hm hsegments he t.options h
  · intro hm
    obtain ⟨segment, hsegment, htext⟩ : ∃ segment, u.segments = [segment] ∧
        segment.text = u.source := by
      rw [hread] at hm
      have h := segments_of_no_message hm
      rwa [← hread] at h
    refine ⟨segment, hsegment, htext, ?_⟩
    simp only [BatchUnit.pieces, hm, hsegment]
    rfl

/-- Two constructs over one variable, of which one run translates the second; its batch also has a
text whose identifier looks like that of a segment. -/
theorem apply_isolated_shared_variable :
    let text := "\x7bn, plural, other \x7ba\x7d\x7d \x7bn, select, x \x7bb\x7d\x7d"
    let texts : Entries String String := [("u", text)]
    let texts' : Entries String String := [("u#seg0", "\x7bn"), ("u", text)]
    let mapping : String → Option String := fun _ => none
    let mapping' : String → Option String := fun segment =>
      if segment = "u#seg2" then some "c" else none
    let s := Session.start "en" {} false false
    let u := (Session.readUnit "u" text).1
    (texts.map (·.1)).Nodup ∧ (texts'.map (·.1)).Nodup ∧
      u ∈ (s.prepare texts).2.value ∧ u ∈ (s.prepare texts').2.value ∧
      (s.apply (s.prepare texts).2.value mapping).2.value.get? u.id =
        some (String.join (u.pieces s.options mapping)) ∧
      (s.apply (s.prepare texts').2.value mapping').2.value.get? u.id =
        some (String.join (u.pieces s.options mapping')) ∧
      (u.pieces s.options mapping)[0]? = (u.pieces s.options mapping')[0]? := by
  intro text texts texts' mapping mapping' s u
  let m : Message :=
    ⟨⟨text, [⟨.plural "n" none [⟨"other", "a"⟩], 0, 22⟩, ⟨.text " ", 22, 23⟩,
      ⟨.select "n" [⟨"x", "b"⟩], 23, 41⟩]⟩, ["n"], true, true⟩
  have hparse : parse text = .ok m := by decide +kernel
  have hm : u.message = some m := by
    rw [Session.message_readUnit, hparse]
    rfl
  have hids : (texts.map (·.1)).Nodup := by decide
  have hids' : (texts'.map (·.1)).Nodup := by decide
  have hu : u ∈ (s.prepare texts).2.value := List.mem_cons_self
  have hu' : u ∈ (s.prepare texts').2.value := List.mem_cons_of_mem _ List.mem_cons_self
  have hagree : ∀ segment ∈ u.segments, segment.origin.index? = some 0 →
      mapping segment.id = mapping' segment.id := by
    decide +kernel
  obtain ⟨-, hresult, hresult', hpieces, -⟩ := Session.apply_isolated hids hids' rfl
    (List.Subset.refl _) (List.Subset.refl _) hu hu' rfl rfl mapping mapping'
  exact ⟨hids, hids', hu, hu', hresult, hresult', (hpieces m hm).2 0 _ rfl (.inr hagree)⟩

end MessageFormat
