import MessageFormat.Batch.Excerpt
import MessageFormat.Json.Value
import MessageFormat.Pattern.Message
import MessageFormat.Replacements.OfJson

/-!
# Described values

How messages, excerpts, options and supplied replacements are printed: as JSON objects whose members
come in a fixed order.
-/

namespace MessageFormat

/-- The object of a branch. -/
def BranchFields.describe (fields : BranchFields) (key text : CodeString) : Json :=
  .ofMembers [(fields.key, .string key), (fields.text, .string text)]

/-- The objects of the branches of an element. -/
def describeBranches (fields : BranchFields) (branches : List Branch) : Json :=
  .array (branches.map fun b => fields.describe b.key b.text)

/-- The object of an element. -/
def Element.describe (e : Element) : Json :=
  let span := [("start", Json.ofNat e.start), ("end", Json.ofNat e.stop)]
  match e.content with
  | .text value => .ofMembers ([("type", .string "text"), ("value", .string value)] ++ span)
  | .argument name type style =>
    .ofMembers ([("type", .string "argument"), ("name", .string name)] ++ span ++
      [("arg_type", .ofString? type), ("format_style", .ofString? style)])
  | .plural name offset variants =>
    .ofMembers ([("type", .string "plural"), ("name", .string name),
      ("variants", describeBranches variantFields variants)] ++ span ++
      [("offset", offset.elim .null .integer)])
  | .ordinal name variants =>
    .ofMembers ([("type", .string "selectordinal"), ("name", .string name),
      ("variants", describeBranches variantFields variants)] ++ span)
  | .select name options =>
    .ofMembers ([("type", .string "select"), ("name", .string name),
      ("options", describeBranches optionFields options)] ++ span)

/-- The object of a message. -/
def Message.describe (m : Message) : Json :=
  .ofMembers [("original", .string m.source), ("has_plurals", .bool m.hasPlurals),
    ("has_select", .bool m.hasSelect), ("is_complex", .bool m.isComplex),
    ("variables", .ofStrings m.names), ("elements", .array (m.elements.map Element.describe))]

/-- The object of an excerpt from a message. -/
def Excerpt.describe (e : Excerpt) : Json :=
  .ofMembers [("index", .ofNat e.index), ("text", .string e.text),
    ("context", .ofString? e.context)]

/-- The object of options. -/
def Options.describe (o : Options) : Json :=
  .ofMembers [("target_language", .string o.language),
    ("validate_categories", .bool o.completePlurals),
    ("preserve_exact_matches", .bool o.keepExactMatches)]

namespace Supplied

/-- The object of supplied branches by variable. -/
def describeEntries (fields : BranchFields) (entries : Entries CodeString (List SuppliedBranch)) :
    Json :=
  .object (entries.map fun (name, branches) =>
    (name, .array (branches.map fun b => fields.describe b.key b.text)))

/-- The object of supplied replacements. No branches are supplied by the index of an element. -/
def describe (s : Supplied) : Json :=
  .ofMembers [("text", .ofMembers (s.text.map fun (index, text) => (toString index, .string text))),
    ("plurals", describeEntries variantFields s.plurals),
    ("selects", describeEntries optionFields s.selects),
    ("plural_elements", .object []), ("select_elements", .object [])]

end Supplied

end MessageFormat
