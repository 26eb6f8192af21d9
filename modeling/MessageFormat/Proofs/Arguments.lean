import MessageFormat.CommandLine.Invocation

/-!
# Arguments

Which command lines `reconstruct MESSAGE --translations FILE` are read, and as what. The program
and the command classify the words each for itself. A word that is plain for the command is one that
the program can tell apart (`exists_classify_program`), and then the words reach the command as they
are. There the message and the file name are found if both are plain (`ofArguments_of_arguments`);
otherwise the command line is refused, whatever options the words may be
(`ofArguments_of_not_arguments`).
-/

namespace MessageFormat.CommandLine

/-- The words of the command that rebuilds a message that are arguments and no options. -/
def IsArgument (word : String) : Prop :=
  (grammarOf "reconstruct").classify word = .ok .plain

/-- The names of the options of the program, letter by letter. -/
theorem countP_named_program (p : List Char → Bool) :
    programGrammar.named.countP (fun n => p n.name.toList) =
      [['-', 'h'], "--help".toList, ['-', 'v'], "--verbose".toList, "--debug".toList].countP p :=
  (List.countP_map (p := p) (f := fun n : Named => n.name.toList) (l := programGrammar.named)).symm

/-- The first letter after two hyphens tells the options of the program apart. -/
theorem length_candidates_long {c : Char} {cs name : List Char}
    (h : ('-' :: '-' :: cs).takeWhile (· != '=') = '-' :: '-' :: c :: name) :
    (programGrammar.candidates ('-' :: '-' :: cs)).length ≤ 1 := by
  have hlong : "--".toList.isPrefixOf ('-' :: '-' :: cs) = true := by simp [List.isPrefixOf]
  rw [Grammar.candidates, if_pos hlong, List.length_map, h, ← List.countP_eq_length_filter,
    countP_named_program fun word => ('-' :: '-' :: c :: name).isPrefixOf word]
  simp [List.countP_cons, List.isPrefixOf]
  grind

/-- The letter after one hyphen tells the options of the program apart. -/
theorem length_candidates_short {c : Char} {cs : List Char} (hc : c ≠ '-') :
    (programGrammar.candidates ('-' :: c :: cs)).length ≤ 1 := by
  have hshort : ¬ "--".toList.isPrefixOf ('-' :: c :: cs) = true := by
    simp [List.isPrefixOf, hc.symm]
  have hsome : ∀ n : Named, ((if n.name.toList = ('-' :: c :: cs).take 2 then
        some (WordKind.known n (some (('-' :: c :: cs).drop 2)))
      else if ('-' :: c :: cs).isPrefixOf n.name.toList then some (.known n none)
      else none).isSome) =
        (decide (n.name.toList = ['-', c]) || ('-' :: c :: cs).isPrefixOf n.name.toList) := by
    intro n
    by_cases hname : n.name.toList = ['-', c]
    · simp [hname]
    · cases hprefix : ('-' :: c :: cs).isPrefixOf n.name.toList <;> simp [hname]
  rw [Grammar.candidates, if_neg hshort, List.length_filterMap_eq_countP]
  simp only [hsome]
  rw [countP_named_program fun word =>
    decide (word = ['-', c]) || ('-' :: c :: cs).isPrefixOf word]
  simp [List.countP_cons, List.isPrefixOf, hc]
  grind

/-- Two hyphens alone, or before an equals sign, may mean several options of the command. -/
theorem not_argument_of_hyphens {word : String}
    (h : word.toList.takeWhile (· != '=') = ['-', '-']) : ¬ IsArgument word := by
  have hnames : ∀ n ∈ (grammarOf "reconstruct").named,
      n.name.toList.takeWhile (· != '=') ≠ ['-', '-'] := by
    decide
  obtain ⟨cs, hcs⟩ : ∃ cs, word.toList = '-' :: '-' :: cs := by
    obtain ⟨cs, hcs⟩ := List.takeWhile_prefix (· != '=') (l := word.toList)
    rw [h] at hcs
    exact ⟨cs, hcs.symm⟩
  have hfind : ∀ name : List Char, name.takeWhile (· != '=') = ['-', '-'] →
      (grammarOf "reconstruct").find? name = none := by
    intro name hname
    refine List.find?_eq_none.2 fun n hn heq => hnames n hn ?_
    rw [eq_of_beq heq, hname]
  have hattached : (if (word.toList.takeWhile (· != '=')).length < word.toList.length then
      (grammarOf "reconstruct").find? (word.toList.takeWhile (· != '=')) else none) = none := by
    rw [h, hfind _ rfl, ite_self]
  have hhead : ¬ word.toList.head? ≠ some '-' := by simp [hcs]
  have hlength : word.toList.length ≠ 1 := by simp [hcs]
  have hlong : "--".toList.isPrefixOf word.toList = true := by simp [hcs, List.isPrefixOf]
  rw [IsArgument, Grammar.classify]
  simp only [if_neg hhead, hfind _ h, if_neg hlength, hattached]
  rw [Grammar.classifyOther, Grammar.candidates, if_pos hlong, h]
  exact nofun

/-- A word is told apart unless it is the beginning of several options. -/
theorem exists_classify {g : Grammar} {raw : String}
    (h : raw.toList.head? = some '-' → raw.toList.length ≠ 1 →
      (g.candidates raw.toList).length ≤ 1) : ∃ kind, g.classify raw = .ok kind := by
  simp only [Grammar.classify]
  split
  · exact ⟨_, rfl⟩
  · next hhead =>
    split
    · exact ⟨_, rfl⟩
    · split
      · exact ⟨_, rfl⟩
      · next hlength =>
        have hle := h (Decidable.not_not.1 hhead) hlength
        split
        · exact ⟨_, rfl⟩
        · rw [Grammar.classifyOther]
          split
          · exact ⟨_, rfl⟩
          · exact ⟨_, rfl⟩
          · next hnone hone =>
            -- Neither none nor one, so there would be two of them.
            match hcandidates : g.candidates raw.toList with
            | [] => exact absurd hcandidates hnone
            | [candidate] => exact absurd hcandidates (hone candidate)
            | _ :: _ :: _ => simp [hcandidates] at hle

/-- The program does not fail on an argument of the command. -/
theorem exists_classify_program {word : String} (h : IsArgument word) :
    ∃ kind, programGrammar.classify word = .ok kind := by
  refine exists_classify fun hhead hlength => ?_
  match hcs : word.toList with
  | [] => simp [hcs] at hhead
  | [c] => simp [hcs] at hlength
  | c :: d :: cs =>
      obtain rfl : c = '-' := by simpa [hcs] using hhead
      by_cases hd : d = '-'
      · subst hd
        cases hname : cs.takeWhile (· != '=') with
        | nil => exact absurd h (not_argument_of_hyphens (by simp [hcs, hname]))
        | cons c name =>
            have hlong : ('-' :: '-' :: cs).takeWhile (· != '=') = '-' :: '-' :: c :: name := by
              simp [hname]
            exact length_candidates_long hlong
      · exact length_candidates_short hd

/-! ### Scanning -/

namespace Grammar

variable {g : Grammar} {found : Found} {raw : String} {n : Named} {attached : Option (List Char)}
  {rest after : List Word}

/-- An option that cannot be read ends the scanning. -/
theorem scan_known_error {fault : UsageFault} (h : g.readOptions n attached rest = .error fault) :
    g.scan found (⟨raw, .known n attached⟩ :: rest) = .error (.fault g.program fault) := by
  rw [scan]
  split <;> simp_all

/-- An option that can be read is added to what has been found. -/
theorem scan_known {c : Cluster} (h : g.readOptions n attached rest = .ok (c, after)) :
    g.scan found (⟨raw, .known n attached⟩ :: rest) =
      add found c >>= fun found => g.scan found after := by
  rw [scan]
  split
  · simp_all
  · next hread =>
    rw [h] at hread
    cases hread
    cases add found c <;> rfl

/-- What looks like an option and is none is passed over. -/
theorem scan_unknown :
    g.scan found (⟨raw, .unknown⟩ :: rest) =
      g.scan { found with extras := found.extras ++ [raw] } rest := by
  rw [scan]

/-- The positional argument is taken where there is none yet. -/
theorem scan_positional {kind : WordKind} {taken : List String}
    (hkind : kind = .plain ∨ kind = .separator) (hfound : found.positional = none)
    (h : g.takePositional (⟨raw, kind⟩ :: rest) = some (taken, after)) :
    g.scan found (⟨raw, kind⟩ :: rest) = g.scan { found with positional := some taken } after := by
  rw [scan]
  · split
    · simp_all
    · next hread =>
      simp only [hfound, h, Option.isNone_none, if_true] at hread
      cases hread
      rfl
  · rcases hkind with rfl | rfl <;> simp
  · rcases hkind with rfl | rfl <;> simp

/-- A plain word after the positional argument is passed over. -/
theorem scan_extra {taken : List String} (hfound : found.positional = some taken) :
    g.scan found (⟨raw, .plain⟩ :: rest) =
      g.scan { found with extras := found.extras ++ [raw] } rest := by
  rw [scan]
  · split
    · rfl
    · next hread =>
      rw [hfound] at hread
      cases hread
  · simp
  · simp

/-- After the last word, what has been found is all. -/
theorem scan_nil : g.scan found [] = .ok found := by
  rw [scan]

/-- Options leave the positional argument as it is. -/
theorem positional_add {c : Cluster} {found' : Found} (h : add found c = .ok found') :
    found'.positional = found.positional := by
  rw [add] at h
  split at h
  · cases h
  · cases h
    rfl

/-- Options do not take the word of another option for a value. -/
theorem readOptions_before_known {n' : Named} {c : Cluster} {raw' : String}
    {attached' : Option (List Char)}
    (h : g.readOptions n attached (⟨raw', .known n' attached'⟩ :: rest) = .ok (c, after)) :
    after = ⟨raw', .known n' attached'⟩ :: rest := by
  rw [readOptions] at h
  split at h
  · cases h
  · split at h
    · cases h
      rfl
    · next last _ =>
      cases hvalue : last.option.takesValue <;> simp only [takeValue, hvalue] at h <;> cases h
      rfl

/-- A word is classified before those after it. -/
theorem words_cons {kind : WordKind} {args : List String} (hraw : raw ≠ "--")
    (hkind : g.classify raw = .ok kind) :
    g.words (raw :: args) = (g.words args).map (⟨raw, kind⟩ :: ·) := by
  rw [words, if_neg hraw, hkind]

/-- A word that cannot be classified makes a command line faulty. -/
theorem words_error {fault : UsageFault} {args : List String} (hraw : raw ≠ "--")
    (hkind : g.classify raw = .error fault) : g.words (raw :: args) = .error fault := by
  rw [words, if_neg hraw, hkind]

/-- The words are kept as they were given. -/
theorem raw_words {args : List String} {words : List Word} (h : g.words args = .ok words) :
    words.map (·.raw) = args := by
  induction args generalizing words with
  | nil =>
      cases h
      rfl
  | cons raw args ih =>
      rw [Grammar.words] at h
      split at h
      · cases h
        simp [Function.comp_def]
      · split at h
        · cases h
        · cases hrest : g.words args with
          | error fault =>
              rw [hrest] at h
              cases h
          | ok rest =>
              rw [hrest] at h
              cases h
              rw [List.map_cons, ih hrest]

/-- What a word may mean are options. -/
theorem mem_candidates {cs : List Char} {kind : WordKind} (h : kind ∈ g.candidates cs) :
    ∃ n attached, kind = .known n attached := by
  rw [candidates] at h
  split at h
  · obtain ⟨n, -, rfl⟩ := List.mem_map.1 h
    exact ⟨n, _, rfl⟩
  · obtain ⟨n, -, hn⟩ := List.mem_filterMap.1 h
    split at hn
    · cases hn
      exact ⟨n, _, rfl⟩
    · split at hn
      · cases hn
        exact ⟨n, _, rfl⟩
      · cases hn

/-- A word by itself does not end the options. -/
theorem classify_ne_separator : g.classify raw ≠ .ok .separator := by
  intro h
  simp only [classify] at h
  split at h
  · cases h
  · split at h
    · cases h
    · split at h
      · cases h
      · split at h
        · cases h
        · rw [classifyOther] at h
          split at h
          · split at h <;> cases h
          · next candidate hcandidate =>
            cases h
            have hmem : WordKind.separator ∈ g.candidates raw.toList := by simp [hcandidate]
            obtain ⟨n, attached, hkind⟩ := mem_candidates hmem
            cases hkind
          · cases h

end Grammar

/-! ### The command line -/

/-- The option whose value names a file with replacements. -/
def translationsOption : Named :=
  ⟨⟨["--translations"], true⟩, "--translations"⟩

/-- The word that is this option. -/
def translationsWord : Word :=
  ⟨"--translations", .known translationsOption none⟩

variable {g : Grammar} {message file : String}

/-- The option takes the last word for its value if that is plain. -/
theorem scan_translations (g : Grammar) (found : Found) (word : Word) :
    g.scan found [translationsWord, word] =
      if word.kind = .plain then
        .ok { found with given := found.given ++ [⟨translationsOption, some word.raw⟩] }
      else .error (.fault g.program (.expectedValue "--translations")) := by
  obtain ⟨raw, kind⟩ := word
  cases kind with
  | plain =>
      have hread : g.readOptions translationsOption none [⟨raw, .plain⟩] =
          .ok (⟨[⟨translationsOption, some raw⟩], some translationsOption⟩, []) := rfl
      rw [translationsWord, Grammar.scan_known hread, if_pos rfl]
      show g.scan { found with given := found.given ++ [⟨translationsOption, some raw⟩] } [] = _
      rw [Grammar.scan_nil]
  | _ => exact Grammar.scan_known_error rfl

/-- The two hyphens are no argument. -/
theorem IsArgument.ne_hyphens {word : String} (h : IsArgument word) : word ≠ "--" := by
  rintro rfl
  exact not_argument_of_hyphens rfl h

/-- The last word is plain exactly if it is an argument. -/
theorem words_last (file : String) :
    (∃ fault, (grammarOf "reconstruct").words [file] = .error fault ∧ ¬ IsArgument file) ∨
      ∃ kind, (grammarOf "reconstruct").words [file] = .ok [⟨file, kind⟩] ∧
        (kind = .plain ↔ IsArgument file) := by
  by_cases hfile : file = "--"
  · subst hfile
    exact .inr ⟨.separator, rfl, iff_of_false nofun fun h => h.ne_hyphens rfl⟩
  · rw [IsArgument]
    cases hkind : (grammarOf "reconstruct").classify file with
    | error fault => exact .inl ⟨fault, Grammar.words_error hfile hkind, nofun⟩
    | ok kind =>
        exact .inr ⟨kind, Grammar.words_cons hfile hkind, by simp⟩

/-- The words of the command when the message can be classified. -/
theorem words_rebuild {kind : WordKind} (hmessage : message ≠ "--")
    (hkind : (grammarOf "reconstruct").classify message = .ok kind) (file : String) :
    (grammarOf "reconstruct").words [message, "--translations", file] =
      ((grammarOf "reconstruct").words [file]).map fun words =>
        ⟨message, kind⟩ :: translationsWord :: words := by
  have htranslations : (grammarOf "reconstruct").classify "--translations" =
      .ok (.known translationsOption none) := rfl
  rw [Grammar.words_cons hmessage hkind, Grammar.words_cons (by decide) htranslations]
  cases (grammarOf "reconstruct").words [file] <;> rfl

/-- The command finds its two arguments. -/
theorem read_arguments (hmessage : IsArgument message) (hfile : IsArgument file) :
    (grammarOf "reconstruct").read [message, "--translations", file] =
      .ok (⟨[⟨translationsOption, some file⟩], some [message], []⟩, [message]) := by
  have hlast : (grammarOf "reconstruct").words [file] = .ok [⟨file, .plain⟩] :=
    Grammar.words_cons hfile.ne_hyphens hfile
  have htake : (grammarOf "reconstruct").takePositional
      [⟨message, .plain⟩, translationsWord, ⟨file, .plain⟩] =
        some ([message], [translationsWord, ⟨file, .plain⟩]) := rfl
  rw [Grammar.read, words_rebuild hmessage.ne_hyphens hmessage, hlast]
  simp only [Except.map]
  rw [Grammar.scan_positional (.inl rfl) rfl htake, scan_translations]
  rfl

/-- After a word that is no argument, or before one, no positional argument is found. -/
theorem scan_of_not_argument {kind last : WordKind} (hseparator : kind ≠ .separator)
    (h : ¬ (kind = .plain ∧ last = .plain)) (g : Grammar) (htakes : g.takesRest = false) :
    (∃ refusal, g.scan {} [⟨message, kind⟩, translationsWord, ⟨file, last⟩] = .error refusal) ∨
      ∃ found, g.scan {} [⟨message, kind⟩, translationsWord, ⟨file, last⟩] = .ok found ∧
        found.positional = none := by
  -- What comes after the first word leaves the positional argument as it is.
  have hrest : ∀ found : Found, found.positional = none →
      (∃ refusal, g.scan found [translationsWord, ⟨file, last⟩] = .error refusal) ∨
        ∃ found', g.scan found [translationsWord, ⟨file, last⟩] = .ok found' ∧
          found'.positional = none := by
    intro found hfound
    rw [scan_translations]
    split
    · exact .inr ⟨_, rfl, hfound⟩
    · exact .inl ⟨_, rfl⟩
  cases kind with
  | separator => exact absurd rfl hseparator
  | unknown =>
      rw [Grammar.scan_unknown]
      exact hrest _ rfl
  | plain =>
      have htake : g.takePositional [⟨message, .plain⟩, translationsWord, ⟨file, last⟩] =
          some ([message], [translationsWord, ⟨file, last⟩]) := by
        simp [Grammar.takePositional, htakes, translationsWord]
      rw [Grammar.scan_positional (.inl rfl) rfl htake, scan_translations,
        if_neg fun hlast => h ⟨rfl, hlast⟩]
      exact .inl ⟨_, rfl⟩
  | known n attached =>
      cases hread : g.readOptions n attached [translationsWord, ⟨file, last⟩] with
      | error fault =>
          rw [Grammar.scan_known_error hread]
          exact .inl ⟨_, rfl⟩
      | ok taken =>
          obtain ⟨c, after⟩ := taken
          obtain rfl := Grammar.readOptions_before_known hread
          rw [Grammar.scan_known hread]
          cases hadd : Grammar.add {} c with
          | error refusal => exact .inl ⟨_, rfl⟩
          | ok found => exact hrest found (Grammar.positional_add hadd)

/-- Unless both words are arguments, the command is refused. -/
theorem read_of_not_arguments (hmessage : message ≠ "--")
    (h : ¬ (IsArgument message ∧ IsArgument file)) :
    ∃ refusal, (grammarOf "reconstruct").read [message, "--translations", file] =
      .error refusal := by
  rw [Grammar.read]
  cases hkind : (grammarOf "reconstruct").classify message with
  | error fault =>
      rw [Grammar.words_error hmessage hkind]
      exact ⟨_, rfl⟩
  | ok kind =>
      rw [words_rebuild hmessage hkind]
      rcases words_last file with ⟨fault, hlast, -⟩ | ⟨last, hlast, hplain⟩
      · rw [hlast]
        exact ⟨_, rfl⟩
      · rw [hlast]
        have hseparator : kind ≠ .separator := by
          rintro rfl
          exact Grammar.classify_ne_separator hkind
        have hwords : ¬ (kind = .plain ∧ last = .plain) := by
          rintro ⟨rfl, hfile⟩
          exact h ⟨hkind, hplain.1 hfile⟩
        rcases scan_of_not_argument hseparator hwords (grammarOf "reconstruct") rfl with
          ⟨refusal, hscan⟩ | ⟨found, hscan, hfound⟩
        · simp only [Except.map]
          rw [hscan]
          exact ⟨_, rfl⟩
        · simp only [Except.map]
          rw [hscan]
          simp only [hfound]
          exact ⟨_, rfl⟩

/-- The program hands the words after the name of a command to the command. -/
theorem read_program {rest : List String} {words : List Word}
    (h : programGrammar.words rest = .ok words) :
    programGrammar.read ("reconstruct" :: rest) =
      .ok ({ positional := some ("reconstruct" :: rest) }, "reconstruct" :: rest) := by
  have htake : programGrammar.takePositional (⟨"reconstruct", .plain⟩ :: words) =
      some ("reconstruct" :: rest, []) := by
    rw [← Grammar.raw_words h]
    rfl
  rw [Grammar.read, Grammar.words_cons (by decide) rfl, h]
  simp only [Except.map]
  rw [Grammar.scan_positional (.inl rfl) rfl htake, Grammar.scan_nil]

/-- A command line that the program cannot tell apart is refused. -/
theorem read_program_error {rest : List String} {fault : UsageFault}
    (h : programGrammar.words rest = .error fault) :
    ∃ refusal, programGrammar.read ("reconstruct" :: rest) = .error refusal := by
  rw [Grammar.read, Grammar.words_cons (by decide) rfl, h]
  exact ⟨_, rfl⟩

/-- The words of a command line in which both words are arguments can be told apart. -/
theorem words_program (hmessage : IsArgument message) (hfile : IsArgument file) :
    ∃ words, programGrammar.words [message, "--translations", file] = .ok words := by
  obtain ⟨kind, hkind⟩ := exists_classify_program hmessage
  obtain ⟨last, hlast⟩ := exists_classify_program hfile
  have htranslations : programGrammar.classify "--translations" = .ok .unknown := rfl
  rw [Grammar.words_cons hmessage.ne_hyphens hkind, Grammar.words_cons (by decide) htranslations,
    Grammar.words_cons hfile.ne_hyphens hlast]
  exact ⟨_, rfl⟩

/-- A message and a file name make an invocation if both are arguments. -/
theorem ofArguments_of_arguments (hmessage : IsArgument message) (hfile : IsArgument file) :
    Invocation.ofArguments ["reconstruct", message, "--translations", file] =
      .ok ⟨false, false, .rebuild message none (some file) none⟩ := by
  obtain ⟨words, hwords⟩ := words_program hmessage hfile
  have hcommand : readCommand ["reconstruct", message, "--translations", file] =
      .ok (.rebuild message none (some file) none, []) := by
    show ((grammarOf "reconstruct").read [message, "--translations", file]).map _ = _
    rw [read_arguments hmessage hfile]
    rfl
  rw [Invocation.ofArguments, read_program hwords]
  simp only [hcommand]
  rfl

/-- Unless both are arguments, the command line is refused. -/
theorem ofArguments_of_not_arguments (h : ¬ (IsArgument message ∧ IsArgument file)) :
    ∃ refusal, Invocation.ofArguments ["reconstruct", message, "--translations", file] =
      .error refusal := by
  rw [Invocation.ofArguments]
  cases hwords : programGrammar.words [message, "--translations", file] with
  | error fault =>
      obtain ⟨refusal, hread⟩ := read_program_error hwords
      rw [hread]
      exact ⟨_, rfl⟩
  | ok words =>
      rw [read_program hwords]
      by_cases hmessage : message = "--"
      · -- The option becomes the message, and nothing accounts for the file name.
        subst hmessage
        have htake : (grammarOf "reconstruct").takePositional
            [⟨"--", .separator⟩, ⟨"--translations", .plain⟩, ⟨file, .plain⟩] =
              some (["--translations"], [⟨file, .plain⟩]) := rfl
        have hwords : (grammarOf "reconstruct").words ["--", "--translations", file] =
            .ok [⟨"--", .separator⟩, ⟨"--translations", .plain⟩, ⟨file, .plain⟩] := rfl
        have hcommand : readCommand ["reconstruct", "--", "--translations", file] =
            .ok (.rebuild "--translations" none none none, [file]) := by
          show ((grammarOf "reconstruct").read ["--", "--translations", file]).map _ = _
          rw [Grammar.read, hwords]
          simp only
          rw [Grammar.scan_positional (.inr rfl) rfl htake, Grammar.scan_extra rfl,
            Grammar.scan_nil]
          rfl
        simp only [hcommand]
        exact ⟨_, rfl⟩
      · obtain ⟨refusal, hread⟩ := read_of_not_arguments hmessage h
        have hcommand : readCommand ["reconstruct", message, "--translations", file] =
            .error refusal := by
          show ((grammarOf "reconstruct").read [message, "--translations", file]).map _ = _
          rw [hread]
          rfl
        simp only [hcommand]
        exact ⟨_, rfl⟩

end MessageFormat.CommandLine
