import MessageFormat.Plural.Category

/-!
# Plural rules of languages

Which plural categories a language distinguishes, with numbers that show them. Every language has
the category `other`: a `Forms` value cannot be made without it, and the categories it requires
are always listed in canonical order.
-/

namespace MessageFormat.Plural

/-- A number that shows the use of a category. -/
inductive Example where
  /-- A whole number. -/
  | whole (n : Nat)
  /-- A number of tenths. -/
  | tenths (n : Nat)
  deriving DecidableEq, Repr

instance (n : Nat) : OfNat Example n :=
  ⟨.whole n⟩

/-- The number in decimal notation. -/
def Example.toString : Example → String
  | .whole n => s!"{n}"
  | .tenths n => s!"{n / 10}.{n % 10}"

/-- The examples of each category for one kind of numbers. A language has the categories for
which there are examples, and `other`. -/
structure Forms where
  zero : List Example := []
  one : List Example := []
  two : List Example := []
  few : List Example := []
  many : List Example := []
  other : List Example
  deriving DecidableEq, Repr

namespace Forms

/-- The examples of a category; none if the language lacks it. -/
def examples (f : Forms) : Category → List Example
  | .zero => f.zero
  | .one => f.one
  | .two => f.two
  | .few => f.few
  | .many => f.many
  | .other => f.other

/-- The language has the category. -/
def Has (f : Forms) (c : Category) : Prop :=
  c = .other ∨ f.examples c ≠ []

instance (f : Forms) (c : Category) : Decidable (f.Has c) :=
  inferInstanceAs (Decidable (_ ∨ _))

/-- The categories that the language has, in canonical order. -/
def categories (f : Forms) : List Category :=
  Category.all.filter fun c => f.Has c

/-- The categories listed are those that the language has. -/
@[simp] theorem mem_categories {f : Forms} {c : Category} : c ∈ f.categories ↔ f.Has c := by
  simp [categories, Category.mem_all]

/-- Every language has the category `other`. -/
theorem other_mem_categories (f : Forms) : .other ∈ f.categories :=
  mem_categories.2 (.inl rfl)

end Forms

/-- The forms of a language for cardinal and for ordinal numbers. -/
structure Rules where
  cardinal : Forms
  ordinal : Forms
  deriving DecidableEq, Repr

namespace Rules

/-- The forms for one kind of numbers. -/
def forms (r : Rules) : Kind → Forms
  | .cardinal => r.cardinal
  | .ordinal => r.ordinal

end Rules

/-! ### The table

Forms that several languages share come first. -/

/-- One thing and any other number of things. -/
def oneOther : Forms :=
  { one := [1], other := [0, 2, 3, 4, 5, 10, 100] }

/-- No distinction between cardinal numbers. -/
def otherOnly : Forms :=
  { other := [0, 1, 2, 3, 4, 5, 10, 100] }

/-- No distinction between ordinal numbers. -/
def ordinalOther : Forms :=
  { other := [1, 2, 3, 4, 5, 10, 100] }

/-- Zero counts as one. -/
def zeroAsOne : Forms :=
  { one := [0, 1], other := [2, 3, 4, 5, 10, 100] }

/-- The first is distinguished from the others. -/
def firstOther : Forms :=
  { one := [1], other := [2, 3, 4, 5, 10, 100] }

/-- The East Slavic forms. -/
def eastSlavic : Forms :=
  { one := [1, 21, 31, 41, 51, 61]
    few := [2, 3, 4, 22, 23, 24, 32, 33, 34]
    many := [0, 5, 6, 7, 8, 9, 10, 11, 12, 13, 14, 15, 16, 17, 18, 19, 20]
    other := [.tenths 15, .tenths 25] }

/-- The West Slavic forms. -/
def westSlavic : Forms :=
  { one := [1]
    few := [2, 3, 4]
    many := [.tenths 15, .tenths 25]
    other := [0, 5, 6, 7, 8, 9, 10, 11, 100] }

/-- The South Slavic forms. -/
def southSlavic : Forms :=
  { one := [1, 21, 31, 41]
    few := [2, 3, 4, 22, 23, 24]
    other := [0, 5, 6, 7, 8, 9, 10, 11] }

/-- The Romance forms, with large round numbers set apart. -/
def romance : Forms :=
  { one := [1], many := [1000000], other := [0, 2, 3, 4, 5, 10, 100] }

/-- The rules for languages that are not in the table. -/
def defaultRules : Rules :=
  ⟨oneOther, ordinalOther⟩

/-- The rules of each language by its primary subtag. -/
def table : List (String × Rules) :=
  [("de", ⟨oneOther, ordinalOther⟩),
   ("nl", ⟨oneOther, ordinalOther⟩),
   ("da", ⟨oneOther, ordinalOther⟩),
   ("nb", ⟨oneOther, ordinalOther⟩),
   ("fi", ⟨oneOther, ordinalOther⟩),
   ("et", ⟨oneOther, ordinalOther⟩),
   ("el", ⟨oneOther, ordinalOther⟩),
   ("tr", ⟨oneOther, ordinalOther⟩),
   ("en", ⟨oneOther,
      { one := [1, 21, 31, 41]
        two := [2, 22, 32, 42]
        few := [3, 23, 33, 43]
        other := [4, 5, 6, 7, 8, 9, 10, 11, 12, 13] }⟩),
   ("sv", ⟨oneOther, { one := [1, 2, 21, 22, 31, 32], other := [3, 4, 5, 10, 100] }⟩),
   ("hu", ⟨oneOther, { one := [1, 5], other := [2, 3, 4, 6, 7, 8, 9, 10] }⟩),
   ("fa", ⟨zeroAsOne, ordinalOther⟩),
   ("hi", ⟨zeroAsOne,
      { one := [1], two := [2, 3], few := [4], many := [6], other := [5, 7, 8, 9, 10, 100] }⟩),
   ("bn", ⟨zeroAsOne,
      { one := [1, 5, 7, 8, 9, 10]
        two := [2, 3]
        few := [4]
        many := [6]
        other := [0, 11, 12, 13, 14] }⟩),
   ("fr", ⟨{ one := [0, 1], many := [1000000], other := [2, 3, 4, 5, 10, 100] }, firstOther⟩),
   ("es", ⟨romance, ordinalOther⟩),
   ("pt", ⟨romance, ordinalOther⟩),
   ("it", ⟨romance, { many := [8, 11, 80, 800], other := [1, 2, 3, 4, 5, 10, 100] }⟩),
   ("ro", ⟨{ one := [1], few := [0, 2, 3, 4, 5, 16, 101], other := [20, 21, 22, 100] },
      { one := [1], other := [0, 2, 3, 4, 5] }⟩),
   ("ru", ⟨eastSlavic, ordinalOther⟩),
   ("uk", ⟨{ eastSlavic with one := [1, 21, 31, 41] },
      { few := [3, 23, 33, 43], other := [1, 2, 4, 5, 10, 100] }⟩),
   ("be", ⟨{ eastSlavic with one := [1, 21, 31, 41] },
      { few := [2, 3, 22, 23], other := [0, 1, 4, 5, 10, 100] }⟩),
   ("pl", ⟨
      { one := [1]
        few := [2, 3, 4, 22, 23, 24, 32, 33, 34]
        many := [0, 5, 6, 7, 8, 9, 10, 11, 12, 13, 14, 15, 16, 17, 18, 19, 20, 25]
        other := [.tenths 15, .tenths 25] },
      ordinalOther⟩),
   ("cs", ⟨westSlavic, ordinalOther⟩),
   ("sk", ⟨westSlavic, ordinalOther⟩),
   ("hr", ⟨southSlavic, ordinalOther⟩),
   ("sr", ⟨southSlavic, ordinalOther⟩),
   ("bs", ⟨southSlavic, ordinalOther⟩),
   ("sl", ⟨
      { one := [1, 101, 201]
        two := [2, 102, 202]
        few := [3, 4, 103, 104]
        other := [0, 5, 6, 7, 8, 9, 10] },
      ordinalOther⟩),
   ("lt", ⟨
      { one := [1, 21, 31, 41]
        few := [2, 3, 4, 5, 6, 7, 8, 9, 22]
        many := [.tenths 1, .tenths 5, .tenths 15]
        other := [0, 10, 11, 12, 20, 30] },
      ordinalOther⟩),
   ("lv", ⟨
      { zero := [0, 10, 11, 12, 20, 30], one := [1, 21, 31, 41], other := [2, 3, 4, 5, 22] },
      ordinalOther⟩),
   ("he", ⟨
      { one := [1], two := [2], many := [20, 30, 100], other := [0, 3, 4, 5, 10, 11, 12] },
      ordinalOther⟩),
   ("ga", ⟨
      { one := [1]
        two := [2]
        few := [3, 4, 5, 6]
        many := [7, 8, 9, 10]
        other := [0, 11, 12, 20] },
      { one := [1], other := [0, 2, 3, 4, 5] }⟩),
   ("ar", ⟨
      { zero := [0]
        one := [1]
        two := [2]
        few := [3, 4, 5, 6, 7, 8, 9, 10, 103, 104, 105]
        many := [11, 12, 13, 14, 15, 16, 17, 18, 19, 99, 111, 112]
        other := [100, 101, 102, 200, 201, 202] },
      ordinalOther⟩),
   ("cy", ⟨
      { zero := [0]
        one := [1]
        two := [2]
        few := [3]
        many := [6]
        other := [4, 5, 7, 8, 9, 10] },
      { zero := [0, 7, 8, 9]
        one := [1]
        two := [2]
        few := [3, 4]
        many := [5, 6]
        other := [10, 11, 12, 13] }⟩),
   ("ja", ⟨otherOnly, ordinalOther⟩),
   ("zh", ⟨otherOnly, ordinalOther⟩),
   ("ko", ⟨otherOnly, ordinalOther⟩),
   ("th", ⟨otherOnly, ordinalOther⟩),
   ("id", ⟨otherOnly, ordinalOther⟩),
   ("vi", ⟨otherOnly, firstOther⟩)]

/-- The languages of the table in alphabetical order. -/
def languages : List String :=
  (table.map (·.1)).mergeSort fun a b => a ≤ b

end MessageFormat.Plural
