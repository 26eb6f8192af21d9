import Mathlib.Data.List.Basic
import Mathlib.Data.List.Induction
import Mathlib.Data.List.Nodup
import MessageFormat.Batch.Session
import MessageFormat.Proofs.Merging

/-!
# Routed segments

How translated segments find their way back. A segment has the key of its branch and the index of
its element, and the segments that have the index of an element are its branches in order
(`Pattern.branches_fragments`). So `collect` makes, under the index of each construct, the list of
its branches with their translated texts, and nothing else.
-/

namespace MessageFormat

/-- The key of the branch that a fragment is, if it belongs to the element with the index. -/
def Origin.keyAt (i : Nat) (o : Origin) : Option String :=
  if o.index? = some i then o.key? else none

/-- The branch that a fragment is, if it belongs to the element with the index. -/
def Fragment.branchAt (i : Nat) (f : Fragment) : Option Branch :=
  (f.origin.keyAt i).map fun key => ⟨key, f.text⟩

/-- The first segment of a branch. -/
def BatchUnit.segmentFor? (u : BatchUnit) (i : Nat) (key : String) : Option Segment :=
  u.segments.find? fun s => s.origin.keyAt i == some key

/-- The translated text of a branch; the first one if the construct repeats the key. -/
def BatchUnit.translation? (u : BatchUnit) (mapping : String → Option String) (i : Nat)
    (key : String) : Option String :=
  (u.segmentFor? i key).bind fun s => mapping s.id

/-- The branches of an element with the texts that their segments have afterwards. -/
def BatchUnit.routed (u : BatchUnit) (mapping : String → Option String) (i : Nat) : List Branch :=
  u.segments.filterMap fun s =>
    (s.origin.keyAt i).map fun key => ⟨key, (mapping s.id).getD s.text⟩

/-- Every branch is translated by a message, and nothing else is translated. -/
structure BatchUnit.Translates (u : BatchUnit) (mapping : String → Option String) : Prop where
  /-- The segments of branches become messages. -/
  branches : ∀ s ∈ u.segments, s.origin.key? ≠ none →
    ∃ text ∈ mapping s.id, isMessage text = true
  /-- The other segments are left alone. -/
  others : ∀ s ∈ u.segments, s.origin.key? = none → mapping s.id = none

/-! ### Fragments -/

/-- The fragments that are branches have the keys of these. -/
theorem keys_branchAt (i : Nat) (fs : List Fragment) :
    (fs.filterMap (·.branchAt i)).map (·.key) = fs.filterMap (·.origin.keyAt i) := by
  rw [List.map_filterMap]
  refine List.filterMap_congr fun f _ => ?_
  rw [Fragment.branchAt, Option.map_map]
  exact Option.map_id'

/-- The fragments of an element under its index are its branches. -/
theorem Content.branches_fragments (c : Content) (n i : Nat) :
    (c.fragments n).filterMap (·.branchAt i) = if n = i then c.branches else [] := by
  by_cases h : n = i
  · subst h
    cases c <;> simp [fragments, branches, Fragment.branchAt, Origin.keyAt, Origin.index?,
      Origin.key?, List.filterMap_map]
  · rw [if_neg h]
    cases c <;> simp [fragments, Fragment.branchAt, Origin.keyAt, Origin.index?, h,
      List.filterMap_map]

/-- The fragments of an element under its index have the keys of its branches. -/
theorem Content.keys_fragments (c : Content) (n i : Nat) :
    (c.fragments n).filterMap (·.origin.keyAt i) =
      if n = i then c.branches.map (·.key) else [] := by
  rw [← keys_branchAt, branches_fragments]
  split <;> rfl

/-- What belongs to one index comes from the element there. -/
theorem flatMap_zipIdx_eq {α β : Type} {xs : List α} {f : α → List β} {k j : Nat} {x : α}
    (h : xs[j]? = some x) :
    ((xs.zipIdx k).flatMap fun y => if y.2 = k + j then f y.1 else []) = f x := by
  induction xs generalizing k j with
  | nil => cases h
  | cons y xs ih =>
      rw [List.zipIdx_cons, List.flatMap_cons]
      cases j with
      | zero =>
          obtain rfl : y = x := by simpa using h
          -- The later entries have larger indices.
          have hrest : ((xs.zipIdx (k + 1)).flatMap fun z =>
              if z.2 = k + 0 then f z.1 else []) = [] := by
            rw [List.flatMap_eq_nil_iff]
            intro z hz
            have hle := List.le_snd_of_mem_zipIdx hz
            rw [if_neg (by omega)]
          rw [hrest, List.append_nil]
          exact if_pos rfl
      | succ j =>
          have h : xs[j]? = some x := by simpa using h
          rw [if_neg (by simp), List.nil_append, ← ih (k := k + 1) h, Nat.add_right_comm k 1 j]
          rfl

/-- The fragments of a message under the index of an element are its branches. -/
theorem Pattern.branches_fragments {p : Pattern} {i : Nat} {e : Element}
    (h : p.elements[i]? = some e) : p.fragments.filterMap (·.branchAt i) = e.content.branches := by
  have hzip := flatMap_zipIdx_eq (k := 0) (f := fun e => e.content.branches) h
  simp only [Nat.zero_add, ← Content.branches_fragments] at hzip
  rw [fragments, List.filterMap_flatten, List.mapIdx_eq_zipIdx_map, List.map_map,
    ← List.flatMap_def]
  exact hzip

/-- Every fragment is one of an element. -/
theorem Pattern.exists_of_mem_fragments {p : Pattern} {f : Fragment} (h : f ∈ p.fragments) :
    ∃ (i : Nat) (e : Element), p.elements[i]? = some e ∧ f ∈ e.content.fragments i := by
  rw [fragments, List.mem_flatten] at h
  obtain ⟨fs, hfs, hf⟩ := h
  obtain ⟨i, hi, rfl⟩ := List.mem_mapIdx.1 hfs
  exact ⟨i, p.elements[i], List.getElem?_eq_getElem hi, hf⟩

/-- The segments of a unit are its fragments. -/
theorem BatchUnit.fragments_segment (u : BatchUnit) :
    u.segment.segments.map (·.toFragment) = u.fragments := by
  rw [segment, found_eq, List.mapIdx_eq_zipIdx_map, List.map_map]
  exact List.zipIdx_map_fst 0 u.fragments

/-! ### Units -/

variable {u : BatchUnit} {p : Pattern} {mapping : String → Option String} {i : Nat} {e : Element}

/-- A text that is a message becomes the unit of that message, with its segments. -/
theorem Session.readUnit_eq {id text : String} {m : Message} (h : parse text = .ok m) :
    (readUnit id text).1 = BatchUnit.segment { id, source := text, message := some m } := by
  rw [readUnit, h]

/-- The empty text is a message. -/
theorem isMessage_empty : isMessage "" = true := by
  decide +kernel

/-- A text that is no message becomes a unit with one segment, which is the whole text. -/
theorem Session.readUnit_of_error {id text : String} {error : ParseError}
    (h : parse text = .error error) :
    readUnit id text =
      (⟨id, text, none, [⟨⟨text, .whole⟩, id, 0⟩]⟩, some (.notAMessage id error)) := by
  have hne : text ≠ "" := by
    rintro rfl
    have hempty := isMessage_empty
    rw [isMessage, h] at hempty
    cases hempty
  have hfound : BatchUnit.found { id, source := text } = [⟨text, .whole⟩] := if_neg hne
  rw [readUnit, h]
  simp only [BatchUnit.segment, hfound]
  rfl

/-- A unit keeps the identifier of its text. -/
theorem Session.id_readUnit (id text : String) : (readUnit id text).1.id = id := by
  rw [readUnit]
  split <;> rfl

/-- A unit keeps its text. -/
theorem Session.source_readUnit (id text : String) : (readUnit id text).1.source = text := by
  rw [readUnit]
  split <;> rfl

/-- A unit has the message that its text is, if it is one. -/
theorem Session.message_readUnit (id text : String) :
    (readUnit id text).1.message = (parse text).toOption := by
  rw [readUnit]
  split
  · next h => rw [h]; rfl
  · next h => rw [h]; rfl

/-- Preparing reads the texts one by one. -/
theorem Session.units_prepare (s : Session) (texts : Entries String String) :
    (s.prepare texts).2.value = texts.map fun entry => (readUnit entry.1 entry.2).1 := by
  rw [prepare, List.map_map]
  rfl

/-- The prepared units are those of the texts. -/
theorem Session.mem_prepare {s : Session} {texts : Entries String String} :
    u ∈ (s.prepare texts).2.value ↔ ∃ id text, (id, text) ∈ texts ∧ (readUnit id text).1 = u := by
  rw [units_prepare, List.mem_map]
  exact ⟨fun ⟨⟨id, text⟩, h, hu⟩ => ⟨id, text, h, hu⟩, fun ⟨id, text, h, hu⟩ => ⟨(id, text), h, hu⟩⟩

/-- A prepared unit is determined by its identifier and its text. -/
theorem Session.eq_readUnit {s : Session} {texts : Entries String String}
    (h : u ∈ (s.prepare texts).2.value) : u = (readUnit u.id u.source).1 := by
  obtain ⟨id, text, -, rfl⟩ := mem_prepare.1 h
  rw [id_readUnit, source_readUnit]

/-- The units of a batch with distinct identifiers are determined by these. -/
theorem Session.eq_of_id_eq {s : Session} {texts : Entries String String} {v : BatchUnit}
    (hids : (texts.map (·.1)).Nodup) (hv : v ∈ (s.prepare texts).2.value)
    (hu : u ∈ (s.prepare texts).2.value) (h : v.id = u.id) : v = u := by
  obtain ⟨id, text, htext, rfl⟩ := mem_prepare.1 hv
  obtain ⟨id', text', htext', rfl⟩ := mem_prepare.1 hu
  rw [id_readUnit, id_readUnit] at h
  have hentry := List.inj_on_of_nodup_map hids htext htext' h
  cases hentry
  rfl

/-- The last pair is put after the others. -/
theorem Entries.ofPairs_append_singleton {κ ν : Type} [DecidableEq κ] (pairs : List (κ × ν))
    (pair : κ × ν) : ofPairs (pairs ++ [pair]) = (ofPairs pairs).put pair.1 pair.2 := by
  rw [ofPairs, List.foldl_append]
  rfl

/-- A key that has a value among the pairs has one of the values that it has there. -/
theorem Entries.exists_get?_ofPairs {κ ν : Type} [DecidableEq κ] {pairs : List (κ × ν)} {key : κ}
    {value : ν} (h : (key, value) ∈ pairs) :
    ∃ found, (key, found) ∈ pairs ∧ (ofPairs pairs).get? key = some found := by
  induction pairs using List.reverseRecOn with
  | nil => cases h
  | append_singleton pairs pair ih =>
      rw [ofPairs_append_singleton, get?_put]
      by_cases hkey : key = pair.1
      · subst hkey
        exact ⟨pair.2, List.mem_append_right _ List.mem_cons_self, if_pos rfl⟩
      -- The last pair has another key, so it leaves the value alone.
      · have hmem : (key, value) ∈ pairs := by
          rcases List.mem_append.1 h with h | h
          · exact h
          · cases List.mem_singleton.1 h
            exact absurd rfl hkey
        obtain ⟨found, hfound, hget⟩ := ih hmem
        exact ⟨found, List.mem_append_left _ hfound, (if_neg hkey).trans hget⟩

/-- Every unit that is applied has a result: what a unit with its identifier is rebuilt to. -/
theorem Session.exists_result (s : Session) {us : List BatchUnit} (hu : u ∈ us)
    (mapping : String → Option String) :
    ∃ v ∈ us, v.id = u.id ∧
      (s.apply us mapping).2.value.get? u.id = some (rebuildUnit s.options v mapping) := by
  have hpair : (u.id, rebuildUnit s.options u mapping) ∈
      us.map fun u => (u.id, rebuildUnit s.options u mapping) := List.mem_map_of_mem hu
  obtain ⟨text, hmem, hresult⟩ := Entries.exists_get?_ofPairs hpair
  obtain ⟨v, hv, hentry⟩ := List.mem_map.1 hmem
  rw [Prod.mk.injEq] at hentry
  obtain ⟨hid, rfl⟩ := hentry
  exact ⟨v, hv, hid, hresult⟩

/-- A unit is rebuilt under its identifier, when no other unit has it. -/
theorem Session.get?_apply {s : Session} {us : List BatchUnit} (hu : u ∈ us)
    (hunique : ∀ v ∈ us, v.id = u.id → v = u) (mapping : String → Option String) :
    (s.apply us mapping).2.value.get? u.id = some (rebuildUnit s.options u mapping) := by
  obtain ⟨v, hv, hid, hresult⟩ := exists_result s hu mapping
  rw [hresult, hunique v hv hid]

/-- The branches of an element keep their keys. -/
theorem BatchUnit.keys_routed (mapping : String → Option String)
    (hu : u.segments.map (·.toFragment) = p.fragments) (he : p.elements[i]? = some e) :
    (u.routed mapping i).map (·.key) = e.content.branches.map (·.key) := by
  rw [← Pattern.branches_fragments he, ← hu, keys_branchAt, routed, List.map_filterMap,
    List.filterMap_map]
  refine List.filterMap_congr fun s _ => ?_
  rw [Option.map_map]
  exact Option.map_id'

/-- The first branch with a key comes from the first segment with it. -/
theorem BatchUnit.branchFor_routed (u : BatchUnit) (mapping : String → Option String) (i : Nat)
    (key : String) :
    branchFor key (u.routed mapping i) =
      (u.segmentFor? i key).map fun s => ⟨key, (mapping s.id).getD s.text⟩ := by
  have hsame : (fun s : Segment => ((s.origin.keyAt i).map fun found =>
      (⟨found, (mapping s.id).getD s.text⟩ : Branch)).any fun b => b.key == key) =
        fun s => s.origin.keyAt i == some key := by
    funext s
    cases s.origin.keyAt i <;> rfl
  rw [branchFor, routed, List.find?_filterMap, hsame, ← segmentFor?]
  cases h : u.segmentFor? i key with
  | none => rfl
  | some s =>
      have hkey := List.find?_some h
      rw [beq_iff_eq] at hkey
      rw [Option.bind_some, hkey]
      rfl

/-- A segment that belongs to a branch has its key. -/
theorem Origin.key?_of_keyAt {o : Origin} {key : String} (h : o.keyAt i = some key) :
    o.key? = some key := by
  rw [keyAt] at h
  split at h
  · exact h
  · cases h

/-- When every branch is translated, its translated text is the one that it has afterwards. -/
theorem BatchUnit.Translates.translation?_eq (h : u.Translates mapping) (i : Nat) (key : String) :
    u.translation? mapping i key = (branchFor key (u.routed mapping i)).map (·.text) := by
  rw [translation?, branchFor_routed]
  cases hs : u.segmentFor? i key with
  | none => rfl
  | some s =>
      have hkey := List.find?_some hs
      rw [beq_iff_eq] at hkey
      have hne : s.origin.key? ≠ none := by
        rw [Origin.key?_of_keyAt hkey]
        exact Option.some_ne_none key
      obtain ⟨text, htext, -⟩ := h.branches s (List.mem_of_find?_eq_some hs) hne
      rw [Option.mem_def] at htext
      rw [Option.bind_some, Option.map_some, Option.map_some, htext, Option.getD_some]

/-- What is no branch keeps its text. -/
theorem BatchUnit.Translates.getD_eq (h : u.Translates mapping) :
    ∀ s ∈ u.segments, s.origin.key? = none → (mapping s.id).getD s.text = s.text := by
  intro s hs hkey
  rw [h.others s hs hkey]
  rfl

/-- The texts that the branches have afterwards are messages. -/
theorem BatchUnit.Translates.isMessage_of_mem_routed (h : u.Translates mapping) {b : Branch}
    (hb : b ∈ u.routed mapping i) : isMessage b.text = true := by
  obtain ⟨s, hs, hbranch⟩ := List.mem_filterMap.1 hb
  obtain ⟨key, hkey, rfl⟩ := Option.map_eq_some_iff.1 hbranch
  have hne : s.origin.key? ≠ none := by
    rw [Origin.key?_of_keyAt hkey]
    exact Option.some_ne_none key
  obtain ⟨text, htext, hmessage⟩ := h.branches s hs hne
  rw [Option.mem_def] at htext
  rw [htext]
  exact hmessage

/-! ### Collecting -/

/-- Variants are collected apart from options. -/
def Origin.isVariant : Origin → Bool
  | .variant .. => true
  | _ => false

/-- The key of the branch that a fragment is, if it is of the kind that is asked for and belongs to
the element with the index. -/
def Origin.branchKeyAt (plural : Bool) (i : Nat) (o : Origin) : Option String :=
  if o.isVariant = plural then o.keyAt i else none

/-- The branches of one kind that are collected under the index of an element. -/
def Replacements.branchesAt (r : Replacements) (plural : Bool) (i : Nat) : List Branch :=
  ((if plural then r.pluralElements else r.selectElements).get? i).getD []

/-- Segments are not collected by the names of variables. -/
theorem Session.route_by_name (r : Replacements) (s : Segment) (text : String) :
    (route r s text).plurals = r.plurals ∧ (route r s text).selects = r.selects := by
  rw [route]
  split
  · exact ⟨rfl, rfl⟩
  · split <;> exact ⟨rfl, rfl⟩
  · exact ⟨rfl, rfl⟩
  · exact ⟨rfl, rfl⟩

/-- A segment that is no branch and has its old text replaces no text. -/
theorem Session.text_route_same (r : Replacements) (s : Segment) {text : String}
    (h : s.origin.key? = none → text = s.text) : (route r s text).text = r.text := by
  rw [route]
  split
  · rfl
  · next horigin => rw [if_pos (h (by rw [horigin]; rfl))]
  · rfl
  · rfl

/-- One more segment replaces the text of the element that it is, if it changes it. -/
theorem Session.text_route (r : Replacements) (s : Segment) (text : String) (i : Nat) :
    (route r s text).text.get? i =
      if s.origin = .text i ∧ text ≠ s.text then some text else r.text.get? i := by
  obtain ⟨⟨old, origin⟩, unit, order⟩ := s
  cases origin with
  | whole => rfl
  | variant index name category => rfl
  | option index name key => rfl
  | text index =>
      by_cases htext : text = old
      · simp [route, htext]
      · have hput := Entries.get?_put r.text (index : Int) i text
        have hindex : ((i : Int) = index) = (index = i) := by
          rw [Int.natCast_inj]
          exact propext eq_comm
        simp only [hindex] at hput
        simp [route, htext, hput]

/-- A branch is added after the others of its element. -/
theorem Entries.getD_put_append (es : Entries Int (List Branch)) (index i : Nat) (b : Branch) :
    ((Entries.put (index : Int) ((es.get? index).getD [] ++ [b]) es).get? i).getD [] =
      (es.get? i).getD [] ++ if index = i then [b] else [] := by
  rw [get?_put]
  by_cases h : index = i
  · subst h
    rw [if_pos rfl, if_pos rfl, Option.getD_some]
  · have hne : ¬ (i : Int) = index := by omega
    rw [if_neg hne, if_neg h, List.append_nil]

/-- One more segment adds at most one branch, to the element that it belongs to. -/
theorem Session.branches_route (r : Replacements) (s : Segment) (text : String) (plural : Bool)
    (i : Nat) :
    (route r s text).branchesAt plural i =
      r.branchesAt plural i ++
        ((s.origin.branchKeyAt plural i).map fun key => ⟨key, text⟩).toList := by
  obtain ⟨⟨old, origin⟩, unit, order⟩ := s
  cases origin with
  | whole =>
      have hnone : Origin.whole.branchKeyAt plural i = none := ite_self none
      rw [hnone]
      exact (List.append_nil _).symm
  | text index =>
      have hnone : (Origin.text index).branchKeyAt plural i = none := by
        simp [Origin.branchKeyAt, Origin.keyAt, Origin.key?]
      rw [hnone]
      by_cases h : text = old <;> simp [route, h, Replacements.branchesAt]
  | variant index name category =>
      cases plural with
      | false => simp [route, Replacements.branchesAt, Origin.branchKeyAt, Origin.isVariant]
      | true =>
          have hput := Entries.getD_put_append r.pluralElements index i ⟨category, text⟩
          refine hput.trans ?_
          by_cases h : index = i <;>
            simp [h, Replacements.branchesAt, Origin.branchKeyAt, Origin.isVariant, Origin.keyAt,
              Origin.index?, Origin.key?]
  | option index name key =>
      cases plural with
      | true => simp [route, Replacements.branchesAt, Origin.branchKeyAt, Origin.isVariant]
      | false =>
          have hput := Entries.getD_put_append r.selectElements index i ⟨key, text⟩
          refine hput.trans ?_
          by_cases h : index = i <;>
            simp [h, Replacements.branchesAt, Origin.branchKeyAt, Origin.isVariant, Origin.keyAt,
              Origin.index?, Origin.key?]

/-- The last segment is collected after the others. -/
theorem Session.collect_append (segments : List Segment) (s : Segment)
    (mapping : String → Option String) :
    collect (segments ++ [s]) mapping =
      route (collect segments mapping) s ((mapping s.id).getD s.text) := by
  rw [collect, List.foldl_append]
  rfl

/-- Nothing is collected by the names of variables. -/
theorem Session.collect_by_name (segments : List Segment) (mapping : String → Option String) :
    (collect segments mapping).plurals = [] ∧ (collect segments mapping).selects = [] := by
  -- On the run from its end, since each segment is added to what the others have made.
  induction segments using List.reverseRecOn with
  | nil => exact ⟨rfl, rfl⟩
  | append_singleton segments s ih =>
      obtain ⟨hplurals, hselects⟩ := ih
      obtain ⟨hplurals', hselects'⟩ :=
        route_by_name (collect segments mapping) s ((mapping s.id).getD s.text)
      rw [collect_append]
      exact ⟨hplurals'.trans hplurals, hselects'.trans hselects⟩

/-- Text that stays the same is not replaced. -/
theorem Session.text_collect_eq_nil (segments : List Segment)
    (h : ∀ s ∈ segments, s.origin.key? = none → (mapping s.id).getD s.text = s.text) :
    (collect segments mapping).text = [] := by
  induction segments using List.reverseRecOn with
  | nil => rfl
  | append_singleton segments s ih =>
      rw [collect_append, text_route_same _ _ (h s (List.mem_append_right _ List.mem_cons_self))]
      exact ih fun s hs => h s (List.mem_append_left _ hs)

/-- A whole run of segments adds the branches of each construct in order. -/
theorem Session.branches_collect (segments : List Segment) (mapping : String → Option String)
    (plural : Bool) (i : Nat) :
    (collect segments mapping).branchesAt plural i =
      segments.filterMap fun s =>
        (s.origin.branchKeyAt plural i).map fun key => ⟨key, (mapping s.id).getD s.text⟩ := by
  induction segments using List.reverseRecOn with
  | nil => cases plural <;> rfl
  | append_singleton segments s ih =>
      rw [collect_append, branches_route, ih, List.filterMap_append]
      cases h : s.origin.branchKeyAt plural i <;> simp [h]

/-! ### Constructs -/

/-- The branches of an element have its index and are of its kind. -/
theorem Content.isVariant_of_mem_fragments {c : Content} {j : Nat} {f : Fragment}
    (hf : f ∈ c.fragments j) (hkey : f.origin.key? ≠ none) :
    f.origin.index? = some j ∧ f.origin.isVariant = c.isPlural := by
  cases c with
  | text value =>
      obtain rfl := List.mem_singleton.1 hf
      exact absurd rfl hkey
  | argument name type style => cases hf
  | plural name offset variants =>
      obtain ⟨b, -, rfl⟩ := List.mem_map.1 hf
      exact ⟨rfl, rfl⟩
  | ordinal name variants =>
      obtain ⟨b, -, rfl⟩ := List.mem_map.1 hf
      exact ⟨rfl, rfl⟩
  | select name options =>
      obtain ⟨b, -, rfl⟩ := List.mem_map.1 hf
      exact ⟨rfl, rfl⟩

/-- Every segment of a unit is a fragment of an element. -/
theorem BatchUnit.exists_of_mem_segments (hu : u.segments.map (·.toFragment) = p.fragments)
    {s : Segment} (hs : s ∈ u.segments) :
    ∃ (j : Nat) (e : Element), p.elements[j]? = some e ∧ s.toFragment ∈ e.content.fragments j := by
  refine Pattern.exists_of_mem_fragments ?_
  rw [← hu]
  exact List.mem_map_of_mem hs

/-- The segments under the index of an element are of its kind. -/
theorem BatchUnit.branchKeyAt_eq (hu : u.segments.map (·.toFragment) = p.fragments)
    (he : p.elements[i]? = some e) {s : Segment} (hs : s ∈ u.segments) :
    s.origin.branchKeyAt e.content.isPlural i = s.origin.keyAt i := by
  rw [Origin.branchKeyAt]
  split
  · rfl
  · next hkind =>
      symm
      rw [Origin.keyAt, ite_eq_right_iff]
      intro hindex
      -- A branch of another kind would be a branch of this element, which has one kind only.
      by_contra hkey
      obtain ⟨j, e', he', hfragment⟩ := exists_of_mem_segments hu hs
      obtain ⟨hindex', hkind'⟩ := Content.isVariant_of_mem_fragments hfragment hkey
      obtain rfl : i = j := Option.some.inj (hindex.symm.trans hindex')
      rw [he] at he'
      cases he'
      exact hkind hkind'

/-- The branches collected for a construct are the routed ones. -/
theorem BatchUnit.branchesAt_eq (mapping : String → Option String)
    (hu : u.segments.map (·.toFragment) = p.fragments) (he : p.elements[i]? = some e) :
    (Session.collect u.segments mapping).branchesAt e.content.isPlural i = u.routed mapping i := by
  rw [Session.branches_collect, routed]
  refine List.filterMap_congr fun s hs => ?_
  rw [branchKeyAt_eq hu he hs]

/-- Without branches by name, those under the index count. -/
theorem Replacements.branchesFor_nil (byIndex : Entries Int (List Branch)) (i : Nat)
    (name : String) : branchesFor byIndex [] i name = (byIndex.get? i).getD [] := by
  rw [branchesFor]
  split
  · next h => exact h.symm
  · rfl

/-- The variants of a plural are replaced by the routed ones. -/
theorem BatchUnit.variantsFor_eq (mapping : String → Option String)
    (hu : u.segments.map (·.toFragment) = p.fragments) (he : p.elements[i]? = some e)
    (hplural : e.content.isPlural = true) (name : String) :
    (Session.collect u.segments mapping).variantsFor i name = u.routed mapping i := by
  rw [Replacements.variantsFor, (Session.collect_by_name u.segments mapping).1,
    Replacements.branchesFor_nil, ← branchesAt_eq mapping hu he, hplural]
  rfl

/-- The options of a select are replaced by the routed ones. -/
theorem BatchUnit.optionsFor_eq (mapping : String → Option String)
    (hu : u.segments.map (·.toFragment) = p.fragments) (he : p.elements[i]? = some e)
    (hselect : e.content.isPlural = false) (name : String) :
    (Session.collect u.segments mapping).optionsFor i name = u.routed mapping i := by
  rw [Replacements.optionsFor, (Session.collect_by_name u.segments mapping).2,
    Replacements.branchesFor_nil, ← branchesAt_eq mapping hu he, hselect]
  rfl

end MessageFormat
