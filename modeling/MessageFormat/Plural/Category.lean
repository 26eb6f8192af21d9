/-!
# Plural categories

The six categories that languages distinguish numbers by, in their canonical order, and the two
kinds of numbers: cardinal ones count, ordinal ones rank.
-/

namespace MessageFormat.Plural

/-- The plural categories of the Unicode locale data. -/
inductive Category where
  | zero
  | one
  | two
  | few
  | many
  | other
  deriving DecidableEq, Repr

namespace Category

/-- All categories in canonical order. -/
def all : List Category :=
  [.zero, .one, .two, .few, .many, .other]

/-- The name by which a message refers to a category. -/
def name : Category → String
  | .zero => "zero"
  | .one => "one"
  | .two => "two"
  | .few => "few"
  | .many => "many"
  | .other => "other"

/-- The category that a name refers to. -/
def ofName? (name : String) : Option Category :=
  all.find? fun c => c.name == name

/-- What a category is used for, as told to a translator. -/
def description : Category → String
  | .zero => "Used for zero quantity"
  | .one => "Used for singular (typically 1)"
  | .two => "Used for dual (typically 2)"
  | .few => "Used for small numbers"
  | .many => "Used for larger numbers"
  | .other => "Default/fallback form"

/-- Every category is listed. -/
theorem mem_all (c : Category) : c ∈ all := by
  cases c <;> decide

/-- A category is found by its name. -/
@[simp] theorem ofName?_name (c : Category) : ofName? c.name = some c := by
  cases c <;> decide

/-- The category that a name refers to has that name. -/
theorem name_of_ofName? {name : String} {c : Category} (h : ofName? name = some c) :
    c.name = name := by
  have := List.find?_some h
  simpa using this

end Category

/-- What a number is used for. -/
inductive Kind where
  /-- The number counts. -/
  | cardinal
  /-- The number ranks. -/
  | ordinal
  deriving DecidableEq, Repr

end MessageFormat.Plural
