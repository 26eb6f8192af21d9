import MessageFormat.Plural.Completion
import MessageFormat.Replacements

/-!
# Merging translated branches

Which branches a rebuilt construct has when some were translated. An empty list means that none
were, and the branches stay as they are.
-/

namespace MessageFormat

/-- The variants of a plural: the first translated one of each category, after those exact matches
of the source that were not translated. -/
def mergeVariants (keepExactMatches : Bool) (source translated : List Branch) : List Branch :=
  if translated = [] then source
  else
    let chosen := firstPerKey translated
    let carried := source.filter fun b => b.isExact && !chosen.any fun c => c.key == b.key
    (if keepExactMatches then carried else []) ++ chosen

/-- The options of a select: the first translated one of each key, those whose key the source has
in the order of the source, and then the others. -/
def mergeOptions (source translated : List Branch) : List Branch :=
  if translated = [] then source
  else
    let chosen := firstPerKey translated
    let known := (firstPerKey source).filterMap fun b => chosen.find? fun c => c.key == b.key
    let added := chosen.filter fun c => !source.any fun b => b.key == c.key
    known ++ added

/-- The variants as a language requires them, if the options ask for it. -/
def Options.complete (o : Options) (kind : Plural.Kind) (variants : List Branch) : List Branch :=
  if o.completePlurals then Plural.complete o.language kind variants else variants

end MessageFormat
