import MessageFormat.Text.Integer
import MessageFormat.Text.Quoted

/-!
# Arguments

How the words of a command line are told apart and what is made of them. A `Grammar` lists the
options of a command and names its one positional argument; `Grammar.read` finds the options that
were given, the positional argument, and the words that nothing accounts for.

A word is classified without regard to its neighbours, except that everything after the first `--`
is plain. An option may be shortened to any beginning that no other option shares. A value follows
its option as the next word, after an equals sign, or right after a single letter, and letters that
take no value may be run together.
-/

namespace MessageFormat.CommandLine

/-- An option of a command. -/
structure OptionSpec where
  /-- Its names, with their hyphens. -/
  names : List String
  /-- It is followed by a value. -/
  takesValue : Bool
  deriving DecidableEq, Repr

/-- All names of an option, as reports show them. -/
def OptionSpec.label (o : OptionSpec) : String :=
  "/".intercalate o.names

/-- The option that every command has. -/
def helpOption : OptionSpec :=
  ⟨["-h", "--help"], false⟩

/-- What a command understands. -/
structure Grammar where
  /-- The name of the program and the command. -/
  program : String
  /-- The options. -/
  options : List OptionSpec
  /-- The name of the positional argument. -/
  positional : String
  /-- All words after the positional argument belong to it. -/
  takesRest : Bool
  deriving DecidableEq, Repr

/-- What is wrong with a command line. -/
inductive UsageFault where
  /-- The positional argument is missing. -/
  | missing (name : String)
  /-- A word is the beginning of several options. -/
  | ambiguous (word : String) (names : List String)
  /-- An option lacks its value. -/
  | expectedValue (label : String)
  /-- A value is attached to an option that takes none. -/
  | ignoredValue (label value : String)
  /-- A word is none of those that are possible in its place. -/
  | invalidChoice (label value : String) (choices : List String)
  /-- Nothing accounts for some words. -/
  | unrecognized (words : List String)
  deriving DecidableEq, Repr

/-- The wording of a fault. -/
def UsageFault.message : UsageFault → String
  | .missing name => "the following arguments are required: " ++ name
  | .ambiguous word names =>
    "ambiguous option: " ++ word ++ " could match " ++ ", ".intercalate names
  | .expectedValue label => "argument " ++ label ++ ": expected one argument"
  | .ignoredValue label value =>
    "argument " ++ label ++ ": ignored explicit argument " ++ Text.quoteWord value
  | .invalidChoice label value choices =>
    "argument " ++ label ++ ": invalid choice: " ++ Text.quoteWord value ++
      " (choose from " ++ ", ".intercalate (choices.map Text.quoteWord) ++ ")"
  | .unrecognized words => "unrecognized arguments: " ++ " ".intercalate words

/-- Why the words of a command line are not carried out. -/
inductive Refusal where
  /-- Help was asked for. -/
  | help
  /-- They are faulty. -/
  | fault (program : String) (fault : UsageFault)
  deriving DecidableEq, Repr

/-- The report of a refusal; asking for help is not reported. -/
def Refusal.message? : Refusal → Option String
  | .help => none
  | .fault program usage => some (program ++ ": error: " ++ usage.message)

/-! ### Words -/

/-- An option under one of its names. -/
structure Named where
  /-- The option. -/
  option : OptionSpec
  /-- The name. -/
  name : String
  deriving DecidableEq, Repr

/-- What a word is. -/
inductive WordKind where
  /-- It ends the options. -/
  | separator
  /-- It is no option. -/
  | plain
  /-- It is an option, perhaps with text attached to it. -/
  | known (named : Named) (attached : Option (List Char))
  /-- It looks like an option, but there is none of the kind. -/
  | unknown
  deriving DecidableEq, Repr

/-- A word of a command line. -/
structure Word where
  /-- The word as it was given. -/
  raw : String
  /-- What it is. -/
  kind : WordKind
  deriving DecidableEq, Repr

/-- A minus sign and decimal digits, perhaps with a point before the last of them. A line break at
the end does not count. -/
def looksNegative (cs : List Char) : Bool :=
  let isDigit := fun c => (Text.digitValue? c).isSome
  match cs with
  | '-' :: number =>
    let number := if number.getLast? = some '\n' then number.dropLast else number
    let whole := number.takeWhile isDigit
    match number.drop whole.length with
    | [] => !whole.isEmpty
    | '.' :: part => !part.isEmpty && part.all isDigit
    | _ => false
  | _ => false

namespace Grammar

/-- All options under all their names. -/
def named (g : Grammar) : List Named :=
  g.options.flatMap fun o => o.names.map fun name => ⟨o, name⟩

/-- The option with a name. -/
def find? (g : Grammar) (name : List Char) : Option Named :=
  g.named.find? fun n => n.name.toList == name

/-- The options that a word may mean which is none by itself: those that it is the beginning of,
up to an equals sign after two hyphens, and the one letter that it starts with. -/
def candidates (g : Grammar) (cs : List Char) : List WordKind :=
  if "--".toList.isPrefixOf cs then
    let name := cs.takeWhile (· != '=')
    let attached := if name.length < cs.length then some (cs.drop (name.length + 1)) else none
    (g.named.filter fun n => name.isPrefixOf n.name.toList).map fun n => .known n attached
  else
    g.named.filterMap fun n =>
      if n.name.toList = cs.take 2 then some (.known n (some (cs.drop 2)))
      else if cs.isPrefixOf n.name.toList then some (.known n none)
      else none

/-- The name of a candidate. -/
def candidateName : WordKind → String
  | .known n _ => n.name
  | _ => ""

/-- What a word is that starts with a hyphen, is longer than that and is no option by itself. -/
def classifyOther (g : Grammar) (raw : String) (cs : List Char) : Except UsageFault WordKind :=
  match g.candidates cs with
  | [] => .ok (if looksNegative cs || cs.contains ' ' then .plain else .unknown)
  | [candidate] => .ok candidate
  | several => .error (.ambiguous raw (several.map candidateName))

/-- What a word is. -/
def classify (g : Grammar) (raw : String) : Except UsageFault WordKind :=
  let cs := raw.toList
  if cs.head? ≠ some '-' then .ok .plain
  else
    match g.find? cs with
    | some n => .ok (.known n none)
    | none =>
      if cs.length = 1 then .ok .plain
      else
        let name := cs.takeWhile (· != '=')
        match if name.length < cs.length then g.find? name else none with
        | some n => .ok (.known n (some (cs.drop (name.length + 1))))
        | none => g.classifyOther raw cs

/-- The words of a command line. -/
def words (g : Grammar) : List String → Except UsageFault (List Word)
  | [] => .ok []
  | raw :: rest =>
    if raw = "--" then .ok (⟨raw, .separator⟩ :: rest.map fun r => ⟨r, .plain⟩)
    else
      match g.classify raw with
      | .error fault => .error fault
      | .ok kind => (g.words rest).map (⟨raw, kind⟩ :: ·)

end Grammar

/-! ### Reading -/

/-- An option that was given, with its value. -/
structure Given extends Named where
  /-- The value, if the option takes one and was given one. -/
  value : Option String
  deriving DecidableEq, Repr

/-- What has been found on a command line. -/
structure Found where
  /-- The options in order. -/
  given : List Given := []
  /-- The positional argument; with the words that belong to it. -/
  positional : Option (List String) := none
  /-- Words that nothing accounts for. -/
  extras : List String := []
  deriving DecidableEq, Repr

/-- What one word makes known: the options in it, and one that is still to be looked at together
with the next word. -/
structure Cluster where
  /-- The options with their values. -/
  given : List Given
  /-- The option at the end of the word. -/
  last : Option Named
  deriving DecidableEq, Repr

namespace Grammar

/-- The fault of a text that is attached to an option that takes no value. -/
def ignored (n : Named) (text : List Char) : UsageFault :=
  .ignoredValue n.option.label (String.ofList text)

/-- The value that an attached text is; two hyphens stand for no value. -/
def attachedValue (text : List Char) : Option String :=
  if text = ['-', '-'] then none else some (String.ofList text)

/-- The options in a word in which text is attached to option `n`. The text is the value of `n`, or
else the letters of further options follow a single hyphen. -/
def cluster (g : Grammar) (n : Named) (text : List Char) : Except UsageFault Cluster :=
  if n.option.takesValue then .ok ⟨[⟨n, attachedValue text⟩], none⟩
  else if "--".toList.isPrefixOf n.name.toList then .error (ignored n text)
  else
    match text with
    | [] => .error (ignored n text)
    | letter :: rest =>
      match g.find? ['-', letter], rest with
      | none, _ => .error (ignored n text)
      | some next, [] => .ok ⟨[⟨n, none⟩], some next⟩
      | some next, _ =>
        (g.cluster next rest).map fun c => { c with given := ⟨n, none⟩ :: c.given }

/-- The options in one word. -/
def clusterOf (g : Grammar) (n : Named) : Option (List Char) → Except UsageFault Cluster
  | none => .ok ⟨[], some n⟩
  | some text => g.cluster n text

/-- What has been found together with what one word made known. To ask for help ends the
reading. -/
def add (found : Found) (c : Cluster) : Except Refusal Found :=
  if c.given.any fun given => given.option = helpOption then .error .help
  else .ok { found with given := found.given ++ c.given }

/-- A value for the option at the end of a word, if it takes one, and the words after it. -/
def takeValue (n : Named) (words : List Word) : Except UsageFault (Given × List Word) :=
  if n.option.takesValue then
    match words with
    | ⟨value, .plain⟩ :: rest => .ok (⟨n, some value⟩, rest)
    | _ => .error (.expectedValue n.option.label)
  else .ok (⟨n, none⟩, words)

/-- Options in one word and, for the last of them, the next word; and the words after them. -/
def readOptions (g : Grammar) (n : Named) (attached : Option (List Char)) (words : List Word) :
    Except UsageFault (Cluster × List Word) :=
  match g.clusterOf n attached with
  | .error fault => .error fault
  | .ok c =>
    match c.last with
    | none => .ok (c, words)
    | some last =>
      (takeValue last words).map fun (given, rest) => ({ c with given := c.given ++ [given] }, rest)

/-- Taking a value leaves no more words. -/
theorem length_of_takeValue {n : Named} {words rest : List Word} {given : Given}
    (h : takeValue n words = .ok (given, rest)) : rest.length ≤ words.length := by
  unfold takeValue at h
  split at h
  · split at h
    · cases h
      simp
    · cases h
  · cases h
    exact Nat.le_refl _

/-- Reading options leaves no more words. -/
theorem length_of_readOptions {g : Grammar} {n : Named} {attached : Option (List Char)}
    {words rest : List Word} {c : Cluster} (h : g.readOptions n attached words = .ok (c, rest)) :
    rest.length ≤ words.length := by
  unfold readOptions at h
  split at h
  · cases h
  · split at h
    · cases h
      exact Nat.le_refl _
    · next last _ =>
      cases htake : takeValue last words with
      | error fault => simp [htake, Except.map] at h
      | ok taken =>
        simp only [htake, Except.map, Except.ok.injEq, Prod.mk.injEq] at h
        exact h.2 ▸ length_of_takeValue htake

/-- The words that belong to the positional argument when it is found at the start of the words,
and the words after them. A separator right before or after it says nothing more. -/
def takePositional (g : Grammar) : List Word → Option (List String × List Word)
  | ⟨raw, .plain⟩ :: rest =>
    if g.takesRest then some (raw :: rest.map (·.raw), [])
    else
      match rest with
      | ⟨_, .separator⟩ :: after => some ([raw], after)
      | _ => some ([raw], rest)
  | ⟨raw, .separator⟩ :: next :: rest =>
    if g.takesRest then some (raw :: next.raw :: rest.map (·.raw), []) else some ([next.raw], rest)
  | _ => none

/-- The positional argument is at least one word. -/
theorem length_of_takePositional {g : Grammar} {words rest : List Word} {taken : List String}
    (h : g.takePositional words = some (taken, rest)) : rest.length < words.length := by
  unfold takePositional at h
  repeat' split at h
  all_goals cases h
  all_goals simp only [List.length_cons, List.length_nil]
  all_goals omega

/-- What is found in the words after what has been found already. -/
def scan (g : Grammar) (found : Found) (words : List Word) : Except Refusal Found :=
  match words with
  | [] => .ok found
  | ⟨raw, kind⟩ :: rest =>
    match kind with
    | .known n attached =>
      match hoptions : g.readOptions n attached rest with
      | .error fault => .error (.fault g.program fault)
      | .ok (c, after) =>
        have : after.length < rest.length + 1 :=
          Nat.lt_succ_of_le (length_of_readOptions hoptions)
        match add found c with
        | .error refusal => .error refusal
        | .ok found => g.scan found after
    | .unknown => g.scan { found with extras := found.extras ++ [raw] } rest
    | kind =>
      match hpositional : if found.positional.isNone then g.takePositional (⟨raw, kind⟩ :: rest)
        else none with
      | none => g.scan { found with extras := found.extras ++ [raw] } rest
      | some (positional, after) =>
        have : after.length < rest.length + 1 := by
          split at hpositional
          · exact length_of_takePositional hpositional
          · cases hpositional
        g.scan { found with positional := some positional } after
  termination_by words.length

/-- What is found on a command line. The positional argument must be there. -/
def read (g : Grammar) (args : List String) : Except Refusal (Found × List String) :=
  match g.words args with
  | .error fault => .error (.fault g.program fault)
  | .ok words =>
    match g.scan {} words with
    | .error refusal => .error refusal
    | .ok found =>
      match found.positional with
      | none => .error (.fault g.program (.missing g.positional))
      | some positional => .ok (found, positional)

end Grammar

namespace Found

/-- The option with one of its names was given. -/
def has (f : Found) (name : String) : Bool :=
  f.given.any fun given => name ∈ given.option.names

/-- The value that an option was given last. -/
def value? (f : Found) (name : String) : Option String :=
  (f.given.reverse.find? fun given => name ∈ given.option.names).bind (·.value)

/-- The name under which an option was given last. -/
def name? (f : Found) (name : String) : Option String :=
  (f.given.reverse.find? fun given => name ∈ given.option.names).map (·.name)

end Found

end MessageFormat.CommandLine
