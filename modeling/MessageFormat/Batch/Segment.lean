import MessageFormat.Batch.Excerpt
import MessageFormat.Pattern.Message

/-!
# Units and their segments

A unit is one text of a batch under its identifier: a message, or a text that is opaque because it
is none. A segment is a fragment of a unit with its place among the fragments. An opaque text is
translated as a whole.
-/

namespace MessageFormat

/-- A fragment with its place in a unit. -/
structure Segment extends Fragment where
  /-- The identifier of the unit. -/
  unit : String
  /-- The number of segments before it. -/
  order : Nat
  deriving DecidableEq, Repr

namespace Segment

/-- The identifier by which the translated text is found. -/
def id (s : Segment) : String :=
  s.unit ++ "#seg" ++ toString s.order

end Segment

/-- A text of a batch. -/
structure BatchUnit where
  /-- The identifier of the unit. -/
  id : String
  /-- The text. -/
  source : String
  /-- The message that the text is; an opaque text is none. -/
  message : Option Message := none
  /-- The segments, once they have been made. -/
  segments : List Segment := []
  deriving DecidableEq, Repr

namespace BatchUnit

/-- The text is no message, or has not been read as one. -/
def isOpaque (u : BatchUnit) : Bool :=
  u.message.isNone

/-- The fragment that an opaque text is, unless it is empty. -/
def wholeFragment (source : String) : List Fragment :=
  if source = "" then [] else [⟨source, .whole⟩]

/-- What is to be translated: the fragments of a message, or the whole of an opaque text unless it
is empty. -/
def fragments (u : BatchUnit) : List Fragment :=
  match u.message with
  | some m => m.fragments
  | none => wholeFragment u.source

/-- The fragments as they are found: those of a message by the routes of its excerpts. -/
def found (u : BatchUnit) : List Fragment :=
  match u.message with
  | some m => m.routes.map Route.fragment
  | none => wholeFragment u.source

/-- All fragments are found. -/
theorem found_eq (u : BatchUnit) : u.found = u.fragments := by
  rw [found, fragments]
  split
  · exact Pattern.map_fragment_routes _
  · rfl

/-- The unit with its segments. Segments that it had before do not count. -/
def segment (u : BatchUnit) : BatchUnit :=
  { u with segments := u.found.mapIdx fun order f => ⟨f, u.id, order⟩ }

end BatchUnit

/-- The units and the segments of a run after one more unit of it: the unit gets its segments, and
these are added to those of the run. -/
def segmentNext (state : List BatchUnit × List Segment) (index : Nat) :
    List BatchUnit × List Segment :=
  match state.1[index]? with
  | none => state
  | some u => (state.1.set index u.segment, state.2 ++ u.segment.segments)

/-- The units with a run of segmentation over those whose indices are listed, and the segments in
the order of the list. -/
def segmentAll (units : List BatchUnit) (run : List Nat) : List BatchUnit × List Segment :=
  run.foldl segmentNext (units, [])

end MessageFormat
