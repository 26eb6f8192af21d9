import MessageFormat.Pattern.Escape
import MessageFormat.Rebuild.Merge
import MessageFormat.Rebuild.Written

/-!
# Rebuilding messages

`rebuild` puts a message together again, one piece for each of its elements, with whatever has been
translated. Text that was not translated is copied from the message as it was written, so a message
changes only in the form of its placeholders.
-/

namespace MessageFormat

/-- The piece that an element becomes: text is copied or replaced, an argument is written in its
one form, and a construct with the branches chosen for it. -/
def rebuildElement (p : Pattern) (t : Replacements) (o : Options) (index : Nat) (e : Element) :
    String :=
  match e.content with
  | .text _ =>
    match t.text.get? index with
    | none => p.slice e.start e.stop
    | some text => escape text
  | .argument name type style => writeArgument name type style
  | .plural name offset variants =>
    let merged := mergeVariants o.keepExactMatches variants (t.variantsFor index name)
    writePlural name offset (o.complete .cardinal merged)
  | .ordinal name variants =>
    let merged := mergeVariants o.keepExactMatches variants (t.variantsFor index name)
    writeOrdinal name (o.complete .ordinal merged)
  | .select name options =>
    writeSelect name (mergeOptions options (t.optionsFor index name))

/-- The pieces that the elements of a pattern become. -/
def rebuiltPieces (p : Pattern) (t : Replacements) (o : Options) : List String :=
  p.elements.mapIdx fun index e => rebuildElement p t o index e

/-- Each element becomes a piece. -/
theorem getElem?_rebuiltPieces {p : Pattern} {i : Nat} {e : Element}
    (he : p.elements[i]? = some e) (t : Replacements) (o : Options) :
    (rebuiltPieces p t o)[i]? = some (rebuildElement p t o i e) := by
  rw [rebuiltPieces, List.getElem?_mapIdx, he]
  rfl

/-- The message that a pattern becomes. -/
def rebuild (p : Pattern) (t : Replacements) (o : Options) : String :=
  String.join (rebuiltPieces p t o)

end MessageFormat
