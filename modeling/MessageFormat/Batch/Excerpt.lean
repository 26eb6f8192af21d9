import MessageFormat.Batch.Fragment

/-!
# Excerpts and their routes

How the fragments of a message are found. One pass over the elements takes out the excerpts, which
is all that a translator sees of them; another one takes down the labels of the branches. `pairUp`
puts the two lists together again: an excerpt without a context is a text, and each of the others
takes the next label. `Pattern.pairUp_excerpts` says that the labels of a message are neither too
few nor too many, so that every message has its routes.
-/

namespace MessageFormat

/-- A piece of a message as a translator sees it. -/
structure Excerpt where
  /-- The index of the element that it was taken from. -/
  index : Nat
  /-- Its text. -/
  text : String
  /-- The line that tells which branch it is; a text has none. -/
  context : Option String
  deriving DecidableEq, Repr

/-- The label of a branch. -/
inductive Label where
  /-- A variant of a plural over the named variable. -/
  | variant (name category : String)
  /-- An option of a select over the named variable. -/
  | option (name key : String)
  deriving DecidableEq, Repr

namespace Content

/-- The excerpts from an element. -/
def excerpts (index : Nat) : Content → List Excerpt
  | .text value => [⟨index, value, none⟩]
  | .argument _ _ _ => []
  | .plural name _ variants =>
    variants.map fun b => ⟨index, b.text, some (variantContext name b.key)⟩
  | .ordinal name variants =>
    variants.map fun b => ⟨index, b.text, some (variantContext name b.key)⟩
  | .select name options =>
    options.map fun b => ⟨index, b.text, some (optionContext name b.key)⟩

/-- The labels of the branches of an element. -/
def labels : Content → List Label
  | .text _ => []
  | .argument _ _ _ => []
  | .plural name _ variants => variants.map fun b => .variant name b.key
  | .ordinal name variants => variants.map fun b => .variant name b.key
  | .select name options => options.map fun b => .option name b.key

end Content

namespace Pattern

/-- The excerpts from a message in reading order. -/
def excerpts (p : Pattern) : List Excerpt :=
  p.elements.zipIdx.flatMap fun (e, index) => e.content.excerpts index

/-- The labels of the branches of a message in reading order. -/
def labels (p : Pattern) : List Label :=
  p.elements.flatMap fun e => e.content.labels

end Pattern

/-- An excerpt and the label of the branch that it is; a text has none. -/
structure Route where
  /-- The excerpt. -/
  excerpt : Excerpt
  /-- The label. -/
  label : Option Label
  deriving DecidableEq, Repr

namespace Route

/-- The fragment that an excerpt is. -/
def fragment (r : Route) : Fragment where
  text := r.excerpt.text
  origin := match r.label with
    | none => .text r.excerpt.index
    | some (.variant name category) => .variant r.excerpt.index name category
    | some (.option name key) => .option r.excerpt.index name key

end Route

/-- The routes of excerpts, and the labels that are left over: each excerpt with a context takes the
next label. There are no routes if the labels run out. -/
def pairUp : List Excerpt → List Label → Option (List Route × List Label)
  | [], labels => some ([], labels)
  | excerpt :: rest, labels =>
    match excerpt.context, labels with
    | none, labels =>
      (pairUp rest labels).map fun (routes, left) => (⟨excerpt, none⟩ :: routes, left)
    | some _, [] => none
    | some _, label :: labels =>
      (pairUp rest labels).map fun (routes, left) => (⟨excerpt, some label⟩ :: routes, left)

/-- The routes of the branches of a construct. -/
def branchRoutes (index : Nat) (context : Branch → String) (label : Branch → Label)
    (branches : List Branch) : List Route :=
  branches.map fun b => ⟨⟨index, b.text, some (context b)⟩, some (label b)⟩

/-- The routes that an element should get: every branch has its own context and its own label. -/
def Content.routes (index : Nat) : Content → List Route
  | .text value => [⟨⟨index, value, none⟩, none⟩]
  | .argument _ _ _ => []
  | .plural name _ variants =>
    branchRoutes index (fun b => variantContext name b.key) (fun b => .variant name b.key) variants
  | .ordinal name variants =>
    branchRoutes index (fun b => variantContext name b.key) (fun b => .variant name b.key) variants
  | .select name options =>
    branchRoutes index (fun b => optionContext name b.key) (fun b => .option name b.key) options

/-- Pairing finds routes again if those with a context are those with a label. -/
theorem pairUp_routes {routes : List Route}
    (h : ∀ r ∈ routes, r.label.isSome = r.excerpt.context.isSome) :
    pairUp (routes.map (·.excerpt)) (routes.filterMap (·.label)) = some (routes, []) := by
  induction routes with
  | nil => rfl
  | cons r routes ih =>
    obtain ⟨hr, hroutes⟩ := List.forall_mem_cons.1 h
    obtain ⟨⟨index, text, context⟩, label⟩ := r
    cases context <;> cases label <;> simp_all [pairUp]

/-- The excerpts from an element are those of its routes. -/
theorem Content.map_excerpt_routes (c : Content) (index : Nat) :
    (c.routes index).map (·.excerpt) = c.excerpts index := by
  cases c <;> simp [routes, branchRoutes, excerpts]

/-- Each branch has its label. -/
theorem filterMap_label_branchRoutes (index : Nat) (context : Branch → String)
    (label : Branch → Label) (branches : List Branch) :
    (branchRoutes index context label branches).filterMap (·.label) = branches.map label := by
  rw [branchRoutes, List.filterMap_map]
  exact congrFun List.filterMap_eq_map branches

/-- The labels of an element are those of its routes. -/
theorem Content.filterMap_label_routes (c : Content) (index : Nat) :
    (c.routes index).filterMap (·.label) = c.labels := by
  cases c <;> simp [routes, labels, filterMap_label_branchRoutes]

/-- The routes of an element lead to its fragments. -/
theorem Content.map_fragment_routes (c : Content) (index : Nat) :
    (c.routes index).map Route.fragment = c.fragments index := by
  cases c <;> simp [routes, branchRoutes, fragments, Route.fragment]

/-- The branches of an element have a context and a label, and its text has neither. -/
theorem Content.isSome_label_routes {c : Content} {index : Nat} {r : Route}
    (h : r ∈ c.routes index) : r.label.isSome = r.excerpt.context.isSome := by
  cases c <;> simp only [routes, branchRoutes, List.mem_map, List.mem_singleton] at h
  case text => rw [h]; rfl
  case argument => cases h
  all_goals
    obtain ⟨b, -, rfl⟩ := h
    rfl

namespace Pattern

/-- Every element of a message gets its routes, and no label is missing or left over. -/
theorem pairUp_excerpts (p : Pattern) :
    pairUp p.excerpts p.labels =
      some (p.elements.zipIdx.flatMap fun (e, index) => e.content.routes index, []) := by
  have hexcerpts : p.excerpts =
      (p.elements.zipIdx.flatMap fun (e, index) => e.content.routes index).map (·.excerpt) := by
    simp only [excerpts, List.map_flatMap, Content.map_excerpt_routes]
  have hlabels : p.labels =
      (p.elements.zipIdx.flatMap fun (e, index) => e.content.routes index).filterMap (·.label) := by
    simp only [List.filterMap_flatMap, Content.filterMap_label_routes]
    rw [labels, ← List.flatMap_map Prod.fst fun e : Element => e.content.labels,
      List.zipIdx_map_fst]
  rw [hexcerpts, hlabels]
  refine pairUp_routes fun r hr => ?_
  obtain ⟨entry, -, hr⟩ := List.mem_flatMap.1 hr
  exact Content.isSome_label_routes hr

/-- The routes of a message. -/
def routes (p : Pattern) : List Route :=
  ((pairUp p.excerpts p.labels).get (by rw [p.pairUp_excerpts]; rfl)).1

/-- The routes of a message are those of its elements in order. -/
theorem routes_eq (p : Pattern) :
    p.routes = p.elements.zipIdx.flatMap fun (e, index) => e.content.routes index := by
  simp only [routes, pairUp_excerpts, Option.get_some]

/-- The routes of a message lead to its fragments. -/
theorem map_fragment_routes (p : Pattern) : p.routes.map Route.fragment = p.fragments := by
  rw [routes_eq, List.map_flatMap, fragments, List.mapIdx_eq_zipIdx_map, ← List.flatMap_def]
  simp only [Content.map_fragment_routes]

end Pattern

end MessageFormat
