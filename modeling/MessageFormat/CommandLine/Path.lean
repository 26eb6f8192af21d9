import MessageFormat.Data.Entries
import MessageFormat.Text.File

/-!
# File names

A file name is a list of steps between slashes, from the root or from the working directory. Empty
steps and single dots lead nowhere and are left out. A first step such as `~` or `~name` stands for
a home directory. A `FileTree` says what is found under the names of the working directory.
-/

namespace MessageFormat

/-- A file name in steps. -/
structure Path where
  /-- The slashes in front: none, one, or exactly two. -/
  root : String
  /-- The steps, none of them empty or a single dot. -/
  steps : List String
  deriving DecidableEq, Repr

namespace Path

/-- A text cut at each slash. -/
def cutSlashes (cs : List Char) : List (List Char) :=
  cs.splitOnP (· == '/')

/-- The path that a name means. Two slashes in front are kept, more than two count as one. -/
def ofString (name : String) : Path :=
  let cs := name.toList
  let slashes := (cs.takeWhile (· == '/')).length
  let root := if slashes = 0 then "" else if slashes = 2 then "//" else "/"
  let steps := (cutSlashes cs).map String.ofList
  ⟨root, steps.filter fun step => step != "" && step != "."⟩

/-- The name of a path. -/
def toString (p : Path) : String :=
  let name := p.root ++ "/".intercalate p.steps
  if name = "" then "." else name

/-- The path with a home directory in place of its first step, if this starts with a tilde; none if
that home directory is not known. -/
def expandHome? (homeOf : String → Option String) (p : Path) : Option Path :=
  match p.steps with
  | [] => some p
  | step :: rest =>
    if p.root = "" ∧ step.toList.head? = some '~' then
      (homeOf step).map fun home =>
        { ofString home with steps := (ofString home).steps ++ rest }
    else some p

/-- The name of the path holds a null character, which no file name may. -/
def holdsNull (p : Path) : Bool :=
  p.toString.toList.contains '\x00'

/-- The path one step further. -/
def child (p : Path) (step : String) : Path :=
  { p with steps := p.steps ++ [step] }

end Path

/-- What is found in the working directory and below it, by the steps that lead there. -/
abbrev FileTree :=
  Entries (List String) FileState

namespace FileTree

/-- What is found under some steps. Whatever has something below it is a directory. -/
def at? (t : FileTree) (steps : List String) : FileState :=
  if steps = [] then .directory
  else
    match Entries.get? t steps with
    | some state => state
    | none =>
      if t.any fun entry => steps.isPrefixOf entry.1 then .directory else .missing

/-- What is found outside the working directory: the directories that lead back from it, and the
root. -/
def outside (steps : List String) : FileState :=
  if steps.all (· == "..") then .directory else .missing

/-- What is found by walking on from a place. Two dots lead back, and only directories can be
walked through. -/
def walk (t : FileTree) (here : List String) : List String → FileState
  | [] => t.at? here
  | step :: rest =>
    match t.at? here with
    | .directory =>
      if step = ".." then
        if here = [] then outside rest else walk t here.dropLast rest
      else walk t (here ++ [step]) rest
    | _ => .missing

/-- What is found under a path. -/
def find (t : FileTree) (p : Path) : FileState :=
  if p.root = "" then t.walk [] p.steps else outside p.steps

/-- The tree with a file or directory written. -/
def write (t : FileTree) (p : Path) (state : FileState) : FileTree :=
  Entries.put p.steps state t

/-- The tree without what is found under a path. -/
def delete (t : FileTree) (p : Path) : FileTree :=
  t.filter fun entry => !p.steps.isPrefixOf entry.1

end FileTree

end MessageFormat
