import MessageFormat.Pattern.Outline

/-!
# Messages

A text is a message when its outline has no fault and every branch of its constructs is a message
itself. `parse` decides it and reports what the message holds; `allElements` is the walk behind it,
through the elements of all depths in reading order. A branch is looked into as soon as it has been
cut out, so its faults are reported before those of the text after it, at their position in the
whole message.
-/

namespace MessageFormat

/-- The elements found by readings that follow one another, or the first fault among them. -/
def gather : List (Except Fault (List Element)) → Except Fault (List Element)
  | [] => .ok []
  | .error fault :: _ => .error fault
  | .ok found :: rest => (gather rest).map (found ++ ·)

/-- The elements of an outline and, after each, what `inside` finds in its bodies. -/
def Outline.elementsWith (o : Outline) (inside : Body → Except Fault (List Element)) :
    Except Fault (List Element) :=
  gather (o.pieces.map (fun piece => (gather (piece.bodies.map inside)).map (piece.element :: ·)) ++
    o.pending.map inside ++ (o.fault.map .error).toList)

/-- The elements of a text and, after each, those of its branches, at every depth. -/
def allElements (text : List Char) : Except Fault (List Element) :=
  let outline := Outline.ofChars text
  let pieces := outline.pieces.attach.map fun ⟨piece, hpiece⟩ =>
    (gather (piece.bodies.attach.map fun ⟨body, hbody⟩ =>
      have := Outline.length_text_lt (Outline.mem_bodies_of_piece hpiece hbody)
      (allElements body.text).mapError (·.shift body.start))).map (piece.element :: ·)
  let pending := outline.pending.attach.map fun ⟨body, hbody⟩ =>
    have := Outline.length_text_lt (Outline.mem_bodies_of_pending hbody)
    (allElements body.text).mapError (·.shift body.start)
  gather (pieces ++ pending ++ (outline.fault.map .error).toList)
  termination_by text.length

/-- The faults of a body are placed in the surrounding text. -/
def Body.elements (b : Body) : Except Fault (List Element) :=
  (allElements b.text).mapError (·.shift b.start)

/-- The walk through a text visits the elements of its outline, each followed by the walk through
its bodies. -/
theorem allElements_eq (text : List Char) :
    allElements text = (Outline.ofChars text).elementsWith Body.elements := by
  rw [allElements]
  simp only [Outline.elementsWith, List.map_subtype, List.unattach_attach]
  rfl

/-- The names in a list without those that occurred before. -/
def distinct (names : List String) : List String :=
  names.foldl (fun seen name => if name ∈ seen then seen else seen ++ [name]) []

/-- A text that is a message, and what it holds. -/
structure Message extends Pattern where
  /-- The names of the variables of all depths, each where it occurs first. -/
  names : List String
  /-- There is a plural at some depth, cardinal or ordinal. -/
  hasPlurals : Bool
  /-- There is a select at some depth. -/
  hasSelect : Bool
  deriving DecidableEq, Repr

namespace Message

/-- The message has a construct with branches. -/
def isComplex (m : Message) : Bool :=
  m.hasPlurals || m.hasSelect

end Message

/-- The message that a text is, or the first fault that keeps it from being one. -/
def parse (text : String) : Except ParseError Message :=
  match allElements text.toList with
  | .error fault => .error ⟨fault, text⟩
  | .ok elements =>
    .ok {
      source := text
      elements := (Outline.ofChars text.toList).pieces.map (·.element)
      names := distinct (elements.filterMap (·.content.name?))
      hasPlurals := elements.any (·.content.isPlural)
      hasSelect := elements.any (·.content.isSelect) }

/-- The text is a message. -/
def isMessage (text : String) : Bool :=
  (parse text).isOk

/-- The variables of a message. -/
def variablesOf (text : String) : Except ParseError (List String) :=
  (parse text).map (·.names)

end MessageFormat
