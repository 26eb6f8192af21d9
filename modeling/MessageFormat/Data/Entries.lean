/-!
# Entries

A list of keys with values in which the order of the keys counts. `put` gives a key a new value
and leaves it in its place; a new key goes to the end. So the order of an `ofPairs` list is that
in which its keys occurred first.
-/

namespace MessageFormat

/-- Keys with their values in order. -/
abbrev Entries (κ ν : Type) :=
  List (κ × ν)

namespace Entries

variable {κ ν : Type} [DecidableEq κ]

/-- The value of a key; of the first of its entries, should there be several. -/
def get? (es : Entries κ ν) (key : κ) : Option ν :=
  (es.find? fun entry => entry.1 = key).map (·.2)

/-- The key gets a value, in its place or at the end. -/
def put (key : κ) (value : ν) : Entries κ ν → Entries κ ν
  | [] => [(key, value)]
  | entry :: rest =>
    if entry.1 = key then (key, value) :: rest else entry :: put key value rest

/-- The entries after one `put` for each pair. -/
def ofPairs (pairs : List (κ × ν)) : Entries κ ν :=
  pairs.foldl (fun es pair => es.put pair.1 pair.2) []

/-- The first entry counts before the others. -/
theorem get?_cons (entry : κ × ν) (es : Entries κ ν) (key : κ) :
    get? (entry :: es) key = if entry.1 = key then some entry.2 else es.get? key := by
  by_cases h : entry.1 = key <;> simp [get?, h]

/-- The key that was put has its value, and no other key is touched. -/
theorem get?_put (es : Entries κ ν) (key other : κ) (value : ν) :
    (es.put key value).get? other = if other = key then some value else es.get? other := by
  induction es with
  | nil =>
    by_cases h : key = other <;> simp [put, get?, h, eq_comm]
  | cons entry rest ih =>
    rw [put]
    simp only [get?] at ih ⊢
    by_cases h : entry.1 = key
    · by_cases hother : key = other
      · simp [h, hother]
      · have : ¬ entry.1 = other := fun he => hother (h ▸ he)
        simp [h, hother, eq_comm]
    · by_cases hother : entry.1 = other
      · have : ¬ other = key := fun he => h (hother.trans he)
        simp [hother, this]
      · simp [h, hother, ih]

/-- A value that is found under a key stands in one of the entries. -/
theorem mem_of_get? {es : Entries κ ν} {key : κ} {value : ν} (h : es.get? key = some value) :
    (key, value) ∈ es := by
  obtain ⟨entry, hentry, rfl⟩ := Option.map_eq_some_iff.1 h
  have hkey : entry.1 = key := by simpa using List.find?_some hentry
  rw [← hkey]
  exact List.mem_of_find?_eq_some hentry

end Entries

end MessageFormat
