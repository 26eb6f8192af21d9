import MessageFormat.Pattern.Element

/-!
# Fragments

The pieces of a message that are translated one by one: its texts and the branches of its
constructs. Each fragment knows where it belongs, so that its translated text can be put back
without looking at the message again. `fragments` lists them in reading order.
-/

namespace MessageFormat

/-- Where in a message a fragment belongs. -/
inductive Origin where
  /-- It is the whole of a text that is no message. -/
  | whole
  /-- It is the text element with this index. -/
  | text (index : Nat)
  /-- It is the variant of a plural over the named variable. -/
  | variant (index : Nat) (name category : String)
  /-- It is the option of a select over the named variable. -/
  | option (index : Nat) (name key : String)
  deriving DecidableEq, Repr

/-- The line that tells a translator which variant of a plural a text is. -/
def variantContext (name category : String) : String :=
  s!"Plural form \"{category}\" for variable \x7b{name}\x7d"

/-- The line that tells a translator which option of a select a text is. -/
def optionContext (name key : String) : String :=
  s!"Select option \"{key}\" for variable \x7b{name}\x7d"

namespace Origin

/-- The name of the kind of fragment. -/
def kind : Origin → String
  | .whole => "opaque"
  | .text _ => "text"
  | .variant _ _ _ => "plural"
  | .option _ _ _ => "select"

/-- The index of the element that the fragment belongs to. -/
def index? : Origin → Option Nat
  | .whole => none
  | .text index => some index
  | .variant index _ _ => some index
  | .option index _ _ => some index

/-- The variable of the construct that the fragment is a branch of. -/
def name? : Origin → Option String
  | .variant _ name _ => some name
  | .option _ name _ => some name
  | _ => none

/-- The category or key of the branch. -/
def key? : Origin → Option String
  | .variant _ _ category => some category
  | .option _ _ key => some key
  | _ => none

/-- A line that tells a translator which branch the fragment is. -/
def context? : Origin → Option String
  | .variant _ name category => some (variantContext name category)
  | .option _ name key => some (optionContext name key)
  | _ => none

end Origin

/-- A piece of a message that is translated by itself. -/
structure Fragment where
  /-- Its text. -/
  text : String
  /-- Where it belongs. -/
  origin : Origin
  deriving DecidableEq, Repr

/-- The fragments of one element. -/
def Content.fragments (index : Nat) : Content → List Fragment
  | .text value => [⟨value, .text index⟩]
  | .argument _ _ _ => []
  | .plural name _ variants => variants.map fun b => ⟨b.text, .variant index name b.key⟩
  | .ordinal name variants => variants.map fun b => ⟨b.text, .variant index name b.key⟩
  | .select name options => options.map fun b => ⟨b.text, .option index name b.key⟩

/-- The fragments of a message in reading order. -/
def Pattern.fragments (p : Pattern) : List Fragment :=
  (p.elements.mapIdx fun index e => e.content.fragments index).flatten

end MessageFormat
