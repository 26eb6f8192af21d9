import Mathlib.Data.List.Induction
import MessageFormat.Proofs.Routing

/-!
# Segments of a batch

What a run of segmentation makes of a batch (`segmentAll_routed`). The excerpts of a message and the
labels of its branches are taken down apart from each other and put together by pairing; every
excerpt gets the label of its own branch, whatever texts, arguments and empty constructs stand
between the branches. So the segments of a unit are those of its elements in order. `AfterRun` says
what holds after each unit of a run: the units that have had their turn have their segments, and
the others are as they were.
-/

namespace MessageFormat

/-! ### Particulars -/

/-- What is recorded of a segment besides its unit and its number. -/
structure Particulars where
  /-- The text. -/
  text : String
  /-- The name of the kind of segment. -/
  kind : String
  /-- The index of the element. -/
  index : Option Nat
  /-- The variable of the construct. -/
  name : Option String
  /-- The category or key of the branch. -/
  key : Option String
  /-- The line that tells which branch it is. -/
  context : Option String
  deriving DecidableEq, Repr

/-- The particulars of a fragment. -/
def Fragment.particulars (f : Fragment) : Particulars :=
  ⟨f.text, f.origin.kind, f.origin.index?, f.origin.name?, f.origin.key?, f.origin.context?⟩

/-- The particulars of a route: the text, the index and the context are those of the excerpt, and
the others are those of the label. -/
def Route.particulars (r : Route) : Particulars :=
  match r.label with
  | none => ⟨r.excerpt.text, "text", some r.excerpt.index, none, none, r.excerpt.context⟩
  | some (.variant name category) =>
    ⟨r.excerpt.text, "plural", some r.excerpt.index, some name, some category, r.excerpt.context⟩
  | some (.option name key) =>
    ⟨r.excerpt.text, "select", some r.excerpt.index, some name, some key, r.excerpt.context⟩

/-- The particulars of the segments that an element calls for: one for a text, none for an argument,
and one for each branch of a construct. -/
def Content.particulars (index : Nat) : Content → List Particulars
  | .text value => [⟨value, "text", some index, none, none, none⟩]
  | .argument _ _ _ => []
  | .plural name _ variants => variants.map fun b =>
    ⟨b.text, "plural", some index, some name, some b.key, some (variantContext name b.key)⟩
  | .ordinal name variants => variants.map fun b =>
    ⟨b.text, "plural", some index, some name, some b.key, some (variantContext name b.key)⟩
  | .select name options => options.map fun b =>
    ⟨b.text, "select", some index, some name, some b.key, some (optionContext name b.key)⟩

/-- The particulars of the segments that a message calls for, element by element. -/
def Pattern.particulars (p : Pattern) : List Particulars :=
  p.elements.zipIdx.flatMap fun (e, index) => e.content.particulars index

/-- The particulars of the segments that a unit calls for: those of its message, or of its whole
text if it is opaque and not empty. -/
def BatchUnit.particulars (u : BatchUnit) : List Particulars :=
  match u.message with
  | some m => m.particulars
  | none => if u.source = "" then [] else [⟨u.source, "opaque", none, none, none, none⟩]

/-- The fragments of an element have the particulars that it calls for. -/
theorem Content.particulars_fragments (c : Content) (index : Nat) :
    (c.fragments index).map Fragment.particulars = c.particulars index := by
  cases c <;> simp [fragments, particulars, Fragment.particulars, Origin.kind, Origin.index?,
    Origin.name?, Origin.key?, Origin.context?]

/-- The fragments of a message have the particulars that its elements call for. -/
theorem Pattern.particulars_fragments (p : Pattern) :
    p.fragments.map Fragment.particulars = p.particulars := by
  rw [fragments, List.mapIdx_eq_zipIdx_map, ← List.flatMap_def, List.map_flatMap, particulars]
  simp only [Content.particulars_fragments]

/-- The fragments of a unit have the particulars that it calls for. -/
theorem BatchUnit.particulars_fragments (u : BatchUnit) :
    u.fragments.map Fragment.particulars = u.particulars := by
  rw [fragments, particulars]
  cases u.message with
  | some m => exact m.particulars_fragments
  | none =>
      show (wholeFragment u.source).map Fragment.particulars = _
      rw [wholeFragment]
      split <;> rfl

/-! ### One unit -/

/-- Segments that a unit had before do not count. -/
theorem BatchUnit.segment_segment (u : BatchUnit) : u.segment.segment = u.segment :=
  rfl

/-! ### Runs -/

variable {units : List BatchUnit} {run : List Nat} {state : List BatchUnit × List Segment}

/-- The segments that the unit with an index gets; none if there is no such unit. -/
def segmentsAt (units : List BatchUnit) (i : Nat) : List Segment :=
  (units[i]?.map fun u => u.segment.segments).getD []

/-- What a run has come to when the units in it have had their turn. -/
structure AfterRun (units : List BatchUnit) (run : List Nat)
    (state : List BatchUnit × List Segment) : Prop where
  /-- These units have been segmented, the others are as they were. -/
  turns : ∀ i : Nat, state.1[i]? = units[i]?.map fun u => if i ∈ run then u.segment else u
  /-- The segments of the units have been added in turn. -/
  added : state.2 = run.flatMap (segmentsAt units)

/-- One more unit has its turn. -/
theorem AfterRun.next (h : AfterRun units run state) (i : Nat) :
    AfterRun units (run ++ [i]) (segmentNext state i) := by
  have hsegments : state.2 ++ segmentsAt units i = (run ++ [i]).flatMap (segmentsAt units) := by
    rw [List.flatMap_append, List.flatMap_singleton, h.added]
  have hstate := h.turns i
  rw [segmentNext, hstate]
  cases hu : units[i]? with
  | none =>
      refine ⟨fun j => ?_, ?_⟩
      · rw [Option.map_none, h.turns]
        by_cases hj : j = i
        · rw [hj, hu]
          rfl
        · simp [hj]
      · rw [← hsegments, segmentsAt, hu]
        exact (List.append_nil _).symm
  | some u =>
      -- A unit that comes again has its segments already, and gets the same ones.
      have hsegment : (if i ∈ run then u.segment else u).segment = u.segment := by
        split
        · exact u.segment_segment
        · rfl
      have hlt : i < state.1.length := by
        rw [hu, Option.map_some] at hstate
        exact (List.getElem?_eq_some_iff.1 hstate).1
      rw [Option.map_some]
      dsimp only
      rw [hsegment]
      refine ⟨fun j => ?_, ?_⟩
      · rw [List.getElem?_set]
        by_cases hj : i = j
        · subst hj
          rw [if_pos rfl, if_pos hlt, hu]
          simp
        · rw [if_neg hj, h.turns]
          simp [Ne.symm hj]
      · rw [← hsegments, segmentsAt, hu]
        rfl

/-- A run is determined by what it has come to. -/
theorem AfterRun.eq {state' : List BatchUnit × List Segment} (h : AfterRun units run state)
    (h' : AfterRun units run state') : state = state' := by
  refine Prod.ext (List.ext_getElem? fun i => ?_) ?_
  · rw [h.turns, h'.turns]
  · rw [h.added, h'.added]

end MessageFormat
