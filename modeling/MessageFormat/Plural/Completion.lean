import MessageFormat.Pattern.Element
import MessageFormat.Plural.Language

/-!
# Completing the variants of a plural

A language requires certain categories of every plural. `complete` keeps the variants that there
are and adds those that are missing; `plan` lists just what a message in the language has to
provide. Both start from the first variant of each key, take the text of a missing category from
`fallback`, and put exact matches first and then categories in canonical order. `complete` keeps
names of no category too, in alphabetical order at the end.
-/

namespace MessageFormat

/-- The branches that come first for their keys. -/
def firstPerKey : List Branch → List Branch
  | [] => []
  | b :: rest => b :: (firstPerKey rest).filter fun other => other.key != b.key

/-- The text of the first branch with a key. -/
def textOf? (branches : List Branch) (key : String) : Option String :=
  (branches.find? fun b => b.key == key).map (·.text)

namespace Plural

/-- The text for a category that has no variant: that of `other`, or else of the first variant that
is no exact match, or else of the first of all. -/
def fallback (variants : List Branch) : String :=
  ((textOf? variants Category.other.name).or
    (((variants.find? fun b => !b.isExact).or variants.head?).map (·.text))).getD ""

/-- The name of a branch is no plural category and it is no exact match. -/
def isUnnamed (b : Branch) : Bool :=
  !b.isExact && (Category.ofName? b.key).isNone

/-- The variant of a category: the one there is, or a new one if the category is required. -/
def variantFor? (variants : List Branch) (required : List Category) (c : Category) :
    Option Branch :=
  match textOf? variants c.name with
  | some text => some ⟨c.name, text⟩
  | none => if c ∈ required then some ⟨c.name, fallback variants⟩ else none

/-- The variants with those added that `required` asks for, in canonical order. -/
def completeFor (required : List Category) (variants : List Branch) : List Branch :=
  let kept := firstPerKey variants
  kept.filter Branch.isExact ++
    Category.all.filterMap (variantFor? kept required) ++
    (kept.filter isUnnamed).mergeSort fun a b => a.key ≤ b.key

/-- The variants with those added that the language requires, in canonical order. -/
def complete (tag : String) (kind : Kind) (variants : List Branch) : List Branch :=
  completeFor (required tag kind) variants

/-- The exact matches and the variants of the required categories. -/
def planFor (required : List Category) (variants : List Branch) : List Branch :=
  let kept := firstPerKey variants
  kept.filter Branch.isExact ++
    required.map fun c => ⟨c.name, (textOf? kept c.name).getD (fallback kept)⟩

/-- The variants that a message in the language must provide. -/
def plan (tag : String) (kind : Kind) (variants : List Branch) : List Branch :=
  planFor (required tag kind) variants

end Plural

end MessageFormat
