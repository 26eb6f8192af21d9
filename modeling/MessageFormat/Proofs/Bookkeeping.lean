import Mathlib.Algebra.GroupWithZero.Nat
import MessageFormat.Proofs.Derivations
import MessageFormat.Proofs.Isolation

/-!
# Bookkeeping of sessions

What a session has noted and what it reports after any calls. `Session.Run` is the step relation:
batches are prepared one after another, and units of any earlier batch are applied. A call adds its
records and nothing else (`notices_prepare`, `notices_apply`); the last batch replaces the units of
the one before. `Run.books` carries both through a run, and `Session.run_bookkeeping` reads the
summary off it.
-/

namespace MessageFormat

namespace Session

/-- A call of a session. -/
inductive Call where
  /-- A batch of texts is prepared. -/
  | prepare (texts : Entries String String)
  /-- Units are rebuilt with translated segments. -/
  | apply (units : List BatchUnit) (mapping : String → Option String)

/-- What is kept of a notice: the name of its kind, its report and its details. -/
abbrev Record : Type :=
  String × String × Option String

/-- The record of a notice. -/
def record (n : Notice) : Record :=
  (n.category, n.message, n.details?)

/-- The record about a text, with the report of its fault if it is no message. -/
def parseRecord? (id text : String) : Option Record :=
  match parse text with
  | .ok _ => none
  | .error error =>
    some ("PARSE", s!"Message {id} is not valid ICU; translating it as plain text.",
      some error.message)

/-- The record about a segment that is not translated. -/
def translationRecord (s : Segment) : Record :=
  ("TRANSLATION", s!"Translation missing for segment {s.id}. Keeping the source text.", none)

/-- The records that a call adds: one for each text of a batch that is no message, and one for each
segment of a unit that has no translation. -/
def Call.records : Call → List Record
  | .prepare texts => texts.filterMap fun entry => parseRecord? entry.1 entry.2
  | .apply units mapping => units.flatMap fun u =>
      (u.segments.filter fun s => (mapping s.id).isNone).map translationRecord

/-- The batch of a call, if it prepares one. -/
def Call.batch? : Call → Option (Entries String String)
  | .prepare texts => some texts
  | .apply _ _ => none

/-- The batch that was prepared last; before the first one it is empty. -/
def lastBatch (calls : List Call) : Entries String String :=
  (calls.filterMap Call.batch?).getLast?.getD []

/-- The calls take the session from `start` to the last state. The units are those that have been
prepared on the way, and only such units are applied. -/
inductive Run (start : Session) : List Call → List BatchUnit → Session → Prop where
  | start : Run start [] [] start
  | prepare {calls made s} (texts : Entries String String) :
      Run start calls made s →
      Run start (calls ++ [.prepare texts]) (made ++ (s.prepare texts).2.value)
        (s.prepare texts).1
  | apply {calls made s units} (mapping : String → Option String) :
      Run start calls made s → units ⊆ made →
      Run start (calls ++ [.apply units mapping]) made (s.apply units mapping).1

/-- The unit has been read from a text. -/
def IsRead (u : BatchUnit) : Prop :=
  ∃ id text, u = (readUnit id text).1

/-! ### One call -/

/-- Preparing a batch adds the records of its texts that are no messages. -/
theorem notices_prepare (s : Session) (texts : Entries String String) :
    (s.prepare texts).1.notices.map record =
      s.notices.map record ++ (Call.prepare texts).records := by
  rw [prepare, List.map_append, List.map_filterMap, List.filterMap_map]
  congr 1
  refine List.filterMap_congr fun entry _ => ?_
  show (readUnit entry.1 entry.2).2.map record = parseRecord? entry.1 entry.2
  rw [readUnit, parseRecord?]
  cases parse entry.2 <;> rfl

/-- All segments of a unit that has been read are looked up. -/
theorem consulted_of_is_read {u : BatchUnit} (h : IsRead u) : consulted u = u.segments := by
  obtain ⟨id, text, rfl⟩ := h
  rw [consulted]
  split
  · next hopaque =>
    -- An opaque text has one segment, so the first one is all.
    obtain ⟨s, hsegments, -⟩ := segments_of_no_message (Option.isNone_iff_eq_none.1 hopaque)
    rw [hsegments]
    rfl
  · rfl

/-- Applying units that have been read adds the records of their untranslated segments. -/
theorem notices_apply (s : Session) {units : List BatchUnit} (h : ∀ u ∈ units, IsRead u)
    (mapping : String → Option String) :
    (s.apply units mapping).1.notices.map record =
      s.notices.map record ++ (Call.apply units mapping).records := by
  rw [apply, List.map_append, List.map_flatMap, Call.records]
  congr 1
  refine List.flatMap_congr fun u hu => ?_
  rw [missing, consulted_of_is_read (h u hu), List.map_map]
  rfl

/-- A unit is opaque exactly if its text is no message. -/
theorem isOpaque_readUnit (id text : String) :
    (readUnit id text).1.isOpaque = !isMessage text := by
  rw [BatchUnit.isOpaque, message_readUnit, isMessage]
  cases parse text <;> rfl

/-- The units of a batch: one for each text in order, opaque exactly if the text is no message, and
then with the whole text as its one segment. -/
structure Prepared (texts : Entries String String) (units : List BatchUnit) : Prop where
  /-- There is a unit for each text. -/
  texts : units.map (fun u => (u.id, u.source)) = texts
  /-- Texts that are no messages are opaque, and no others. -/
  isOpaque : ∀ u ∈ units, u.isOpaque = true ↔ ∃ error, parse u.source = .error error
  /-- Opaque texts are segments as a whole. -/
  whole : ∀ u ∈ units, u.isOpaque = true → ∃ s, u.segments = [s] ∧ s.text = u.source

/-- Preparing a batch returns its units. -/
theorem prepared (s : Session) (texts : Entries String String) :
    Prepared texts (s.prepare texts).2.value where
  texts := by
    rw [units_prepare, List.map_map]
    refine (List.map_congr_left fun entry _ => ?_).trans (List.map_id texts)
    rw [Function.comp_apply, id_readUnit, source_readUnit]
    rfl
  isOpaque := by
    intro u hu
    rw [eq_readUnit hu, isOpaque_readUnit, source_readUnit, isMessage]
    cases parse u.source <;> simp [Except.isOk, Except.toBool]
  whole := by
    intro u hu hopaque
    rw [BatchUnit.isOpaque, Option.isNone_iff_eq_none, eq_readUnit hu] at hopaque
    have h := segments_of_no_message hopaque
    rwa [← eq_readUnit hu] at h

/-! ### Runs -/

variable {start s : Session} {calls : List Call} {made : List BatchUnit}

/-- After preparing a batch, that batch is the last one. -/
theorem lastBatch_prepare (calls : List Call) (texts : Entries String String) :
    lastBatch (calls ++ [.prepare texts]) = texts := by
  simp [lastBatch, Call.batch?]

/-- Applying units leaves the last batch what it is. -/
theorem lastBatch_apply (calls : List Call) (units : List BatchUnit)
    (mapping : String → Option String) :
    lastBatch (calls ++ [.apply units mapping]) = lastBatch calls := by
  simp [lastBatch, Call.batch?]

/-- The units made on the way have been read from texts. -/
theorem Run.is_read (h : Run start calls made s) : ∀ u ∈ made, IsRead u := by
  induction h with
  | start => simp
  | @prepare calls made s texts _ ih =>
      intro u hu
      rcases List.mem_append.1 hu with hu | hu
      · exact ih u hu
      · exact ⟨_, _, eq_readUnit hu⟩
  | apply _ _ _ ih => exact ih

/-- The books of a session after the calls. -/
structure Books (calls : List Call) (s : Session) : Prop where
  /-- The records of all calls are kept. -/
  notices : s.notices.map record = calls.flatMap Call.records
  /-- The units are those of the last batch. -/
  units : s.units = (lastBatch calls).map fun entry => (readUnit entry.1 entry.2).1
  /-- The segments are those of the units. -/
  segments : s.segments = s.units.flatMap (·.segments)

/-- Preparing a batch keeps the books. -/
theorem Books.prepare (h : Books calls s) (texts : Entries String String) :
    Books (calls ++ [.prepare texts]) (s.prepare texts).1 where
  notices := by
    rw [notices_prepare, h.notices, List.flatMap_append, List.flatMap_singleton]
  units := by
    rw [lastBatch_prepare]
    exact units_prepare s texts
  segments := rfl

/-- Applying units keeps the books. -/
theorem Books.apply (h : Books calls s) {units : List BatchUnit} (hunits : ∀ u ∈ units, IsRead u)
    (mapping : String → Option String) :
    Books (calls ++ [.apply units mapping]) (s.apply units mapping).1 where
  notices := by
    rw [notices_apply s hunits, h.notices, List.flatMap_append, List.flatMap_singleton]
  units := by
    rw [lastBatch_apply]
    exact h.units
  segments := h.segments

/-- The books are kept through a run. -/
theorem Run.books {language : String} {options : Options} {verbose debug : Bool}
    (h : Run (.start language options verbose debug) calls made s) : Books calls s := by
  induction h with
  | start => exact ⟨rfl, rfl, rfl⟩
  | prepare texts _ ih => exact ih.prepare texts
  | apply mapping hrun hunits ih =>
      exact ih.apply (fun u hu => hrun.is_read u (hunits hu)) mapping

/-! ### Summaries -/

/-- The text holds a plural or a select at some depth. -/
def holdsConstruct (text : String) : Bool :=
  (elementsIn text).any fun e => e.content.isPlural || e.content.isSelect

/-- The summary reports all calls and counts what the last batch holds. -/
structure Reported (calls : List Call) (r : Summary) : Prop where
  /-- The reports of all records are given in order. -/
  reports : r.reports = (calls.flatMap Call.records).map (·.2.1)
  /-- There are as many as the calls have added. -/
  total : r.reports.length = (calls.map fun call => call.records.length).sum
  /-- The texts are counted. -/
  units : r.units = (lastBatch calls).length
  /-- The texts that are no messages are counted. -/
  opaqueUnits : r.opaqueUnits = (lastBatch calls).countP fun entry => !isMessage entry.2
  /-- The messages that hold a construct are counted. -/
  complexUnits : r.complexUnits = (lastBatch calls).countP fun entry => holdsConstruct entry.2
  /-- The segments of the units are counted. -/
  segments : r.segments =
    ((lastBatch calls).map fun entry => (readUnit entry.1 entry.2).1.segments.length).sum

/-- A unit has a complex message exactly if its text holds a construct. -/
theorem isComplex_readUnit (id text : String) :
    (readUnit id text).1.message.any Message.isComplex = holdsConstruct text := by
  rw [message_readUnit, parse, holdsConstruct, elementsIn]
  cases allElements text.toList with
  | error fault => rfl
  | ok elements =>
      show (elements.any (·.content.isPlural) || elements.any (·.content.isSelect)) =
        elements.any fun e => e.content.isPlural || e.content.isSelect
      rw [Bool.eq_iff_iff]
      simp only [List.any_eq_true, Bool.or_eq_true, and_or_left, exists_or]

/-- What a session with kept books reports. -/
theorem Books.reported (h : Books calls s) : Reported calls s.summary where
  reports := by
    rw [← h.notices, List.map_map]
    rfl
  total := by
    rw [← List.length_flatMap, ← h.notices, List.length_map]
    exact List.length_map _
  units := by
    show s.units.length = _
    rw [h.units, List.length_map]
  opaqueUnits := by
    show s.units.countP _ = _
    rw [h.units, List.countP_map]
    exact List.countP_congr fun entry _ => by
      rw [Function.comp_apply, isOpaque_readUnit]
  complexUnits := by
    show s.units.countP _ = _
    rw [h.units, List.countP_map]
    exact List.countP_congr fun entry _ => by
      rw [Function.comp_apply, isComplex_readUnit]
  segments := by
    show s.segments.length = _
    rw [h.segments, h.units, List.length_flatMap, List.map_map]
    rfl

/-- After any calls a session has kept a record of each fault, each in its place, and nothing else,
and its summary reports them all; what it counts is the last batch. The next call adds its own
records, whichever it is: a batch gives a unit for each of its texts, and every unit that is applied
has a result. -/
theorem run_bookkeeping {language : String} {options : Options} {verbose debug : Bool}
    (h : Run (.start language options verbose debug) calls made s) :
    s.notices.map record = calls.flatMap Call.records ∧
      Reported calls s.summary ∧
      (∀ texts, (s.prepare texts).1.notices.map record =
          s.notices.map record ++ (Call.prepare texts).records ∧
        Prepared texts (s.prepare texts).2.value) ∧
      ∀ units, units ⊆ made → ∀ mapping,
        (s.apply units mapping).1.notices.map record =
            s.notices.map record ++ (Call.apply units mapping).records ∧
          ∀ u ∈ units, ∃ v ∈ units, v.id = u.id ∧
            (s.apply units mapping).2.value.get? u.id = some (rebuildUnit s.options v mapping) := by
  refine ⟨h.books.notices, h.books.reported, fun texts => ?_, fun units hunits mapping => ?_⟩
  · exact ⟨notices_prepare s texts, prepared s texts⟩
  · have hread : ∀ u ∈ units, IsRead u := fun u hu => h.is_read u (hunits hu)
    exact ⟨notices_apply s hread mapping, fun u hu => exists_result s hu mapping⟩

/-- A batch with a text that is no message and a plural, a second batch, and then the units of the
first without any translation. -/
theorem run_bookkeeping_two_batches :
    let start := Session.start "en" {} false false
    let texts : Entries String String :=
      [("a", "\x7bn"), ("b", "\x7bn, plural, other \x7bx\x7d\x7d")]
    let texts' : Entries String String := [("c", "t")]
    let first := start.prepare texts
    let second := first.1.prepare texts'
    let mapping : String → Option String := fun _ => none
    let calls : List Call := [.prepare texts, .prepare texts', .apply first.2.value mapping]
    let s := (second.1.apply first.2.value mapping).1
    Run start calls (first.2.value ++ second.2.value) s ∧ Reported calls s.summary ∧
      s.summary.reports.length = 3 ∧ s.summary.units = 1 := by
  intro start texts texts' first second mapping calls s
  have hrun : Run start calls (first.2.value ++ second.2.value) s :=
    .apply mapping (.prepare texts' (.prepare texts .start)) (List.subset_append_left _ _)
  obtain ⟨-, hreported, -⟩ := run_bookkeeping hrun
  have htotal : (calls.map fun call => call.records.length).sum = 3 := by decide +kernel
  exact ⟨hrun, hreported, hreported.total.trans htotal, hreported.units⟩

end Session

end MessageFormat
