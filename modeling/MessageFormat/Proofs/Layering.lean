import Mathlib.Data.List.Induction
import Mathlib.Data.List.Nodup
import MessageFormat.Settings.EnvFile
import MessageFormat.Settings.Settings

/-!
# Layers of settings

Which value of a setting is in force, and what is reported when values in force are no good
(`Settings.ofLayers_layered`). The merge goes over the variables of one layer after another and
keeps two tables; `Merged.Records` says what both know of every variable, and each variable that is
added keeps it up to date. What is in force is thereby told from the layers alone, without the
order in which they are merged. The names of variables and layers and the defaults are spelled out
where it is said what is in force, so that they do not depend on the tables of the program.
-/

namespace MessageFormat

namespace Entries

variable {κ ν : Type} [DecidableEq κ] {es es' : Entries κ ν}

/-- A value is found under the keys that occur. -/
theorem isSome_get?_iff {key : κ} : (es.get? key).isSome ↔ key ∈ es.map (·.1) := by
  simp [get?, List.find?_isSome]

/-- Where no key occurs twice, every entry is found under its key. -/
theorem get?_eq_some_iff (h : (es.map (·.1)).Nodup) {key : κ} {value : ν} :
    es.get? key = some value ↔ (key, value) ∈ es := by
  refine ⟨mem_of_get?, fun hmem => ?_⟩
  obtain ⟨found, hfound⟩ :=
    Option.isSome_iff_exists.1 (isSome_get?_iff.2 (List.mem_map.2 ⟨_, hmem, rfl⟩))
  have hsame : (key, found) = (key, value) :=
    List.inj_on_of_nodup_map h (mem_of_get? hfound) hmem rfl
  rw [hfound, (Prod.mk.inj hsame).2]

/-- Where no key occurs twice, the order of the entries does not count. -/
theorem get?_perm (hperm : es.Perm es') (h : (es.map (·.1)).Nodup) (key : κ) :
    es.get? key = es'.get? key := by
  ext value
  rw [get?_eq_some_iff h, get?_eq_some_iff ((hperm.map _).nodup_iff.1 h), hperm.mem_iff]

/-- A key that is put occurs among the keys once. -/
theorem nodup_put (h : (es.map (·.1)).Nodup) (key : κ) (value : ν) :
    ((es.put key value).map (·.1)).Nodup := by
  induction es with
  | nil => simp [put]
  | cons entry rest ih =>
      obtain ⟨hnew, hrest⟩ := List.nodup_cons.1 ((List.map_cons ..) ▸ h)
      rw [put]
      split
      case isTrue hkey =>
        rw [← hkey]
        exact h
      case isFalse hkey =>
        rw [List.map_cons, List.nodup_cons]
        refine ⟨fun hmem => ?_, ih hrest⟩
        rw [← isSome_get?_iff, get?_put, if_neg hkey, isSome_get?_iff] at hmem
        exact hnew hmem

end Entries

namespace EnvFile

/-- No variable is set twice by statements that have been resolved. -/
theorem nodup_resolve (environment : Entries String String) (statements : List Statement) :
    ((resolve environment statements).map (·.1)).Nodup := by
  induction statements using List.reverseRecOn with
  | nil => exact List.nodup_nil
  | append_singleton statements last ih =>
      rw [resolve, List.foldl_append]
      exact Entries.nodup_put ih _ _

/-- No variable is set twice by a file that has been read, so what is read can make a layer of
`Layers.Distinct`. -/
theorem nodup_read (environment : Entries String String) (text : String) :
    ((EnvFile.read environment text).map (·.1)).Nodup :=
  nodup_resolve environment _

end EnvFile

/-! ### What merged variables record -/

variable {m : Merged} {known : String → Option (String × Layer)} {layer : Layer}

/-- The two tables of merged variables know the same of each variable: its value and the layer that
gave it. -/
structure Merged.Records (m : Merged) (known : String → Option (String × Layer)) : Prop where
  /-- The values. -/
  values : ∀ key, m.values.get? key = (known key).map (·.1)
  /-- The layers. -/
  sources : ∀ key, m.sources.get? key = (known key).map (·.2)

/-- What a layer says of a variable; nothing if the variable gives no setting. -/
def Layer.gives? (layer : Layer) (given : Entries String String) (key : String) :
    Option (String × Layer) :=
  if key ∈ Setting.all.map Setting.key then (given.get? key).map (·, layer) else none

/-- The order of the variables of a layer does not count. -/
theorem Layer.gives?_perm {given given' : Entries String String} (hperm : given.Perm given')
    (h : (given.map (·.1)).Nodup) : layer.gives? given = layer.gives? given' := by
  funext key
  rw [gives?, gives?, Entries.get?_perm hperm h]

/-- Both tables are kept up to date with a variable that is added. -/
theorem Merged.Records.add (h : m.Records known) (entry : String × String) :
    (m.add layer entry).Records fun key => (layer.gives? [entry] key).or (known key) := by
  have hgives : ∀ key, layer.gives? [entry] key =
      if entry.1 ∈ Setting.all.map Setting.key ∧ key = entry.1 then some (entry.2, layer)
      else none := by
    intro key
    rw [Layer.gives?, Entries.get?_cons]
    by_cases hkey : key = entry.1
    · subst hkey
      simp
    · simp [Ne.symm hkey, hkey, Entries.get?]
  rw [Merged.add]
  split
  case isTrue hsetting =>
    constructor
    · intro key
      rw [Entries.get?_put, hgives, h.values]
      by_cases hkey : key = entry.1 <;> simp [hkey, hsetting]
    · intro key
      rw [Entries.get?_put, hgives, h.sources]
      by_cases hkey : key = entry.1 <;> simp [hkey, hsetting]
  case isFalse hother => simpa [hgives, hother] using h

/-- Both tables are kept up to date with variables that are added one after another. -/
theorem Merged.Records.foldl_add {given : Entries String String}
    (hgiven : (given.map (·.1)).Nodup) (h : m.Records known) :
    (given.foldl (Merged.add layer) m).Records
      fun key => (layer.gives? given key).or (known key) := by
  induction given generalizing m known with
  | nil =>
      simpa [Layer.gives?, Entries.get?] using h
  | cons entry rest ih =>
      obtain ⟨hnew, hrest⟩ := List.nodup_cons.1 ((List.map_cons ..) ▸ hgiven)
      -- The variable comes once, so those after it leave it as it is.
      have hgives : ∀ key, layer.gives? (entry :: rest) key =
          (layer.gives? rest key).or (layer.gives? [entry] key) := by
        intro key
        simp only [Layer.gives?, Entries.get?_cons]
        by_cases hkey : entry.1 = key
        · subst hkey
          rw [Option.not_isSome_iff_eq_none.1 (mt Entries.isSome_get?_iff.1 hnew)]
          simp
        · simp [Entries.get?, hkey]
      rw [List.foldl_cons]
      simpa only [hgives, Option.or_assoc] using ih hrest (h.add entry)

/-- Both tables are kept up to date with one more layer. -/
theorem Merged.Records.merge {given : Entries String String} (hgiven : (given.map (·.1)).Nodup)
    (h : m.Records known) :
    (m.merge layer given).Records fun key => (layer.gives? given key).or (known key) := by
  have hsorted := List.mergeSort_perm given fun a b => a.1 ≤ b.1
  rw [Merged.merge, ← Layer.gives?_perm hsorted ((hsorted.map _).nodup_iff.2 hgiven)]
  exact h.foldl_add ((hsorted.map _).nodup_iff.2 hgiven)

/-! ### What is in force -/

namespace Layers

variable {l : Layers}

/-- No variable is given twice in one layer. -/
structure Distinct (l : Layers) : Prop where
  /-- The names of the file. -/
  file : (l.file.map (·.1)).Nodup
  /-- The names of the environment. -/
  process : (l.process.map (·.1)).Nodup

/-- The variables that give settings. -/
def names : List String :=
  ["ICUFORGE_TARGET_LANGUAGE", "ICUFORGE_VALIDATE_CATEGORIES", "ICUFORGE_PRESERVE_EXACT_MATCHES",
    "ICUFORGE_DEBUG"]

/-- The value of a variable that is in force, with its layer: that of the process if there is one,
else that of the file if it has a value there. -/
def inForce? (l : Layers) (name : String) : Option (String × Layer) :=
  match l.process.get? name, l.file.get? name with
  | some value, _ => some (value, .process)
  | none, some (some value) => some (value, .file)
  | none, _ => none

/-- The language in force. -/
def language (l : Layers) : String :=
  ((l.inForce? "ICUFORGE_TARGET_LANGUAGE").map (·.1)).getD "en"

/-- The truth value that a word means, in small or in capital letters. -/
def meaning? (word : String) : Option Bool :=
  List.lookup (String.ofList (word.toList.map Char.toLower))
    [("1", true), ("on", true), ("t", true), ("true", true), ("y", true), ("yes", true),
      ("0", false), ("off", false), ("f", false), ("false", false), ("n", false), ("no", false)]

/-- The truth value in force, if the value in force is a word for one; it is the default if no layer
gives a value. -/
def truth? (l : Layers) (name : String) (byDefault : Bool) : Option Bool :=
  match l.inForce? name with
  | some (value, _) => meaning? value
  | none => some byDefault

/-- Whether plurals are completed, if that is a truth value. -/
def completePlurals? (l : Layers) : Option Bool :=
  l.truth? "ICUFORGE_VALIDATE_CATEGORIES" true

/-- Whether exact matches of the source are kept, if that is a truth value. -/
def keepExactMatches? (l : Layers) : Option Bool :=
  l.truth? "ICUFORGE_PRESERVE_EXACT_MATCHES" true

/-- Whether traces are printed, if that is a truth value. -/
def debug? (l : Layers) : Option Bool :=
  l.truth? "ICUFORGE_DEBUG" false

/-- A variable whose value in force is no truth value, with the layer that the value is from. -/
def invalid? (l : Layers) (name : String) : Option (String × Layer) :=
  match l.inForce? name with
  | some (value, layer) => if meaning? value = none then some (name, layer) else none
  | none => none

/-- The variables in the order of their report whose value in force ought to be a truth value and is
none. -/
def invalid (l : Layers) : List (String × Layer) :=
  ["ICUFORGE_VALIDATE_CATEGORIES", "ICUFORGE_PRESERVE_EXACT_MATCHES", "ICUFORGE_DEBUG"].filterMap
    l.invalid?

/-- The names that have a value are distinct. -/
theorem Distinct.given (h : l.Distinct) : (l.given.map (·.1)).Nodup := by
  have hfile := h.file
  rw [List.Nodup, List.pairwise_map] at hfile ⊢
  refine hfile.filterMap _ fun a a' hne b hb b' hb' => ?_
  obtain ⟨value, -, rfl⟩ := Option.map_eq_some_iff.1 hb
  obtain ⟨value', -, rfl⟩ := Option.map_eq_some_iff.1 hb'
  exact hne

/-- The value of a name of the file, if it has one. -/
theorem Distinct.get?_given (h : l.Distinct) (key : String) :
    l.given.get? key = (l.file.get? key).join := by
  ext value
  rw [Entries.get?_eq_some_iff h.given, Option.join_eq_some_iff, Entries.get?_eq_some_iff h.file]
  simp [Layers.given]

/-- Merged layers know of every variable what the process says of it, or else the file. -/
theorem Distinct.records (h : l.Distinct) :
    l.merged.Records fun key =>
      (Layer.process.gives? l.process key).or ((Layer.file.gives? l.given key).or none) :=
  have hnone : ({} : Merged).Records fun _ => none := ⟨fun _ => rfl, fun _ => rfl⟩
  (hnone.merge h.given).merge h.process

/-- The process goes before the file. -/
theorem inForce?_eq (l : Layers) (name : String) :
    l.inForce? name = ((l.process.get? name).map (·, Layer.process)).or
      ((l.file.get? name).join.map (·, Layer.file)) := by
  rw [inForce?]
  cases l.process.get? name with
  | some value => rfl
  | none => rcases l.file.get? name with _ | _ | value <;> rfl

/-- Every setting has its variable. -/
theorem key_mem_names (s : Setting) : s.key ∈ names := by
  cases s <;> decide

/-- Merged layers know of every variable that gives a setting what is in force. -/
theorem Distinct.merged (h : l.Distinct) {name : String} (hname : name ∈ names) :
    l.merged.values.get? name = (l.inForce? name).map (·.1) ∧
      l.merged.sources.get? name = (l.inForce? name).map (·.2) := by
  have hsetting : name ∈ Setting.all.map Setting.key := hname
  have hknown : (Layer.process.gives? l.process name).or
      ((Layer.file.gives? l.given name).or none) = l.inForce? name := by
    rw [Layer.gives?, Layer.gives?, if_pos hsetting, if_pos hsetting, h.get?_given, Option.or_none,
      inForce?_eq]
  rw [← hknown]
  exact ⟨h.records.values _, h.records.sources _⟩

/-- No layer is known of what has no name. -/
theorem Distinct.source_empty (h : l.Distinct) : l.merged.sources.get? "" = none := by
  have hother : "" ∉ Setting.all.map Setting.key := by decide
  rw [h.records.sources, Layer.gives?, Layer.gives?, if_neg hother, if_neg hother]
  rfl

/-- The report of values that are no good. -/
def report (lines : List String) : String :=
  "\n".intercalate ("Configuration validation errors detected:" :: lines)

/-- The line of a report about a value that ought to be a truth value. -/
def invalidLine (name : String) (layer : Layer) : String :=
  let origin := match layer with
    | .file => " (source: env:.env:" ++ name ++ ")"
    | .process => " (source: env:process:" ++ name ++ ")"
  "- " ++ name ++ ": Input should be a valid boolean, unable to interpret input" ++ origin

/-- The settings that are in force, or the report of what is wrong with them, as told from the
values in force. -/
def outcome (l : Layers) : Except String Settings :=
  if Text.strip l.language.toList = [] then
    .error (report ["- Value error, ICUFORGE_TARGET_LANGUAGE must not be empty."])
  else
    match l.completePlurals?, l.keepExactMatches?, l.debug? with
    | some completePlurals, some keepExactMatches, some debug =>
      .ok ⟨tidyLanguage l.language, completePlurals, keepExactMatches, debug⟩
    | _, _, _ => .error (report (l.invalid.map fun (name, layer) => invalidLine name layer))

end Layers

/-! ### Reading values -/

namespace Settings

variable {values values' : Entries String String} {l : Layers}

/-- A language is blank when nothing is left of it. -/
theorem tidyLanguage_eq_empty_iff (value : String) :
    tidyLanguage value = "" ↔ Text.strip value.toList = [] := by
  rw [tidyLanguage, ← String.toList_inj, String.toList_ofList]
  simp

/-- A value is read as the truth value that it means. -/
theorem readBoolean_eq (word : String) : readBoolean word = Layers.meaning? word := by
  rw [readBoolean, Layers.meaning?, lowercaseWord]
  generalize String.ofList (word.toList.map Char.toLower) = small
  by_cases htrue : small ∈ trueWords
  · rw [if_pos htrue]
    simp only [trueWords, List.mem_cons, List.not_mem_nil, or_false] at htrue
    rcases htrue with rfl | rfl | rfl | rfl | rfl | rfl <;> rfl
  · rw [if_neg htrue]
    by_cases hfalse : small ∈ falseWords
    · rw [if_pos hfalse]
      simp only [falseWords, List.mem_cons, List.not_mem_nil, or_false] at hfalse
      rcases hfalse with rfl | rfl | rfl | rfl | rfl | rfl <;> rfl
    · rw [if_neg hfalse, eq_comm, List.lookup_eq_none_iff]
      simp_all [trueWords, falseWords]

/-- The language that values say, or the default. -/
def languageOf (values : Entries String String) : String :=
  (values.get? Setting.language.key).getD defaultLanguage

/-- Values are refused if the language that they say is blank. -/
theorem tidied?_eq_none_iff :
    tidied? values = none ↔ Text.strip (languageOf values).toList = [] := by
  rw [tidied?, languageOf]
  cases values.get? Setting.language.key with
  | none => simpa using by decide
  | some value =>
      rw [Option.getD_some, ← tidyLanguage_eq_empty_iff]
      dsimp only
      split <;> simp_all

/-- Tidying makes the language tidy, if there is one, and leaves the other values alone. -/
theorem get?_tidied (h : tidied? values = some values') (key : String) :
    values'.get? key =
      if key = Setting.language.key then (values.get? key).map tidyLanguage
      else values.get? key := by
  rw [tidied?] at h
  split at h
  case h_1 hnone =>
    rw [← Option.some.inj h]
    split
    case isTrue hkey =>
      rw [hkey, hnone]
      rfl
    case isFalse => rfl
  case h_2 value hvalue =>
    split at h
    case isTrue => cases h
    case isFalse =>
      rw [← Option.some.inj h, Entries.get?_put]
      split
      case isTrue hkey =>
        rw [hkey, hvalue]
        rfl
      case isFalse => rfl

/-- Tidying makes the language tidy. The default is tidy from the beginning. -/
theorem languageOf_tidied (h : tidied? values = some values') :
    languageOf values' = tidyLanguage (languageOf values) := by
  rw [languageOf, languageOf, get?_tidied h, if_pos rfl]
  cases values.get? Setting.language.key with
  | none => decide
  | some value => rfl

/-- Tidying leaves the truth values alone. -/
theorem boolean?_tidied (h : tidied? values = some values') {s : Setting} (hs : s ≠ .language) :
    boolean? values' s = boolean? values s := by
  have hkey : s.key ≠ Setting.language.key := by
    revert hs
    cases s <;> decide
  rw [boolean?, boolean?, get?_tidied h, if_neg hkey]

/-- The truth value that merged layers say is the one in force. -/
theorem boolean?_merged (h : l.Distinct) (s : Setting) :
    boolean? l.merged.values s = l.truth? s.key (defaultBoolean s) := by
  rw [boolean?, Layers.truth?, (h.merged (Layers.key_mem_names s)).1]
  cases l.inForce? s.key with
  | none => rfl
  | some found => exact readBoolean_eq found.1

/-- The language that merged layers say is the one in force. -/
theorem languageOf_merged (h : l.Distinct) : languageOf l.merged.values = l.language := by
  rw [languageOf, (h.merged (Layers.key_mem_names .language)).1, Layers.language, defaultLanguage,
    Setting.key]

/-- The line about a truth value names the layer of the value in force. -/
theorem line_notBoolean (h : l.Distinct) {s : Setting} {value : String} {layer : Layer}
    (hs : l.inForce? s.key = some (value, layer)) :
    SettingsIssue.line l.merged.sources (.notBoolean s) = Layers.invalidLine s.key layer := by
  have hname : s.key ≠ "" := by cases s <;> decide
  have hsource : l.merged.sources.get? s.key = some layer := by
    rw [(h.merged (Layers.key_mem_names s)).2, hs]
    rfl
  rw [SettingsIssue.line, SettingsIssue.location, if_neg hname, hsource, SettingsIssue.message,
    ← String.toList_inj]
  cases layer <;> simp [Layers.invalidLine, Layer.name, toString]

/-- The lines about truth values are those of the values in force that are none. -/
theorem lines_notBoolean (h : l.Distinct) (settings : List Setting) :
    (settings.filter fun s => (l.truth? s.key (defaultBoolean s)).isNone).map
        (fun s => SettingsIssue.line l.merged.sources (.notBoolean s)) =
      ((settings.map Setting.key).filterMap l.invalid?).map
        fun (name, layer) => Layers.invalidLine name layer := by
  induction settings with
  | nil => rfl
  | cons s rest ih =>
      rw [List.filter_cons, List.map_cons, List.filterMap_cons, Layers.truth?, Layers.invalid?]
      cases hs : l.inForce? s.key with
      | none => simpa using ih
      | some found =>
          cases hvalue : Layers.meaning? found.1 with
          | some truth => simpa [hvalue] using ih
          | none => simpa [hvalue, line_notBoolean h hs] using ih

/-- The report about a blank language. -/
theorem message_blankLanguage (h : l.Distinct) :
    SettingsFault.message ⟨[.blankLanguage], l.merged.sources⟩ =
      Layers.report ["- Value error, ICUFORGE_TARGET_LANGUAGE must not be empty."] := by
  simp [SettingsFault.message, SettingsFault.lines, SettingsIssue.line, SettingsIssue.location,
    SettingsIssue.message, Layers.report, h.source_empty]

/-- The report about values in force that ought to be truth values. -/
theorem message_notBoolean (h : l.Distinct) :
    SettingsFault.message
        ⟨(booleans.filter fun s => (l.truth? s.key (defaultBoolean s)).isNone).map .notBoolean,
          l.merged.sources⟩ =
      Layers.report (l.invalid.map fun (name, layer) => Layers.invalidLine name layer) := by
  rw [SettingsFault.message, SettingsFault.lines, List.map_map, Function.comp_def,
    lines_notBoolean h]
  rfl

/-- What layers come to is told from the values in force. -/
theorem mapError_ofLayers (h : l.Distinct) :
    (ofLayers l).mapError SettingsFault.message = l.outcome := by
  rw [ofLayers, ofValues, Layers.outcome, ← languageOf_merged h]
  cases htidied : tidied? l.merged.values with
  | none =>
      rw [if_pos (tidied?_eq_none_iff.1 htidied)]
      exact congrArg Except.error (message_blankLanguage h)
  | some values =>
      have hlanguage : (values.get? Setting.language.key).getD defaultLanguage =
          tidyLanguage (languageOf l.merged.values) := languageOf_tidied htidied
      have htruth : ∀ s ∈ booleans, boolean? values s = l.truth? s.key (defaultBoolean s) := by
        intro s hs
        rw [boolean?_tidied htidied (by rintro rfl; simp [booleans] at hs), boolean?_merged h]
      have hcomplete : boolean? values .completePlurals = l.completePlurals? :=
        htruth .completePlurals (by decide)
      have hkeep : boolean? values .keepExactMatches = l.keepExactMatches? :=
        htruth .keepExactMatches (by decide)
      have hdebug : boolean? values .debug = l.debug? := htruth .debug (by decide)
      have hblank : ¬Text.strip (languageOf l.merged.values).toList = [] := by
        rw [← tidied?_eq_none_iff, htidied]
        simp
      rw [if_neg hblank]
      dsimp only
      rw [ofTidy, hcomplete, hkeep, hdebug, hlanguage,
        List.filter_congr fun s hs => congrArg Option.isNone (htruth s hs)]
      rcases l.completePlurals? with _ | completePlurals
      · exact congrArg Except.error (message_notBoolean h)
      rcases l.keepExactMatches? with _ | keepExactMatches
      · exact congrArg Except.error (message_notBoolean h)
      rcases l.debug? with _ | debug
      · exact congrArg Except.error (message_notBoolean h)
      · rfl

end Settings

/-! ### Outcomes -/

namespace Layers

variable {l : Layers}

/-- The outcome is told from the values in force alone. -/
theorem outcome_congr {l' : Layers} (h : ∀ name ∈ names, l'.inForce? name = l.inForce? name) :
    l'.outcome = l.outcome := by
  have hlanguage : l'.language = l.language := by
    rw [language, language, h _ (by decide)]
  have htruth : ∀ name ∈ names, l'.truth? name = l.truth? name := by
    intro name hname
    funext byDefault
    rw [truth?, truth?, h name hname]
  have hinvalid : l'.invalid = l.invalid := by
    refine List.filterMap_congr fun name hname => ?_
    rw [invalid?, invalid?, h name (List.mem_cons_of_mem _ hname)]
  rw [outcome, outcome, completePlurals?, keepExactMatches?, debug?, hlanguage, hinvalid,
    htruth _ (by decide), htruth _ (by decide), htruth _ (by decide), ← completePlurals?,
    ← keepExactMatches?, ← debug?]

/-- A variable is invalid exactly if it has no truth value in force. -/
theorem invalid_eq_nil_iff (l : Layers) :
    l.invalid = [] ↔
      l.completePlurals?.isSome ∧ l.keepExactMatches?.isSome ∧ l.debug?.isSome := by
  have hone : ∀ name byDefault, l.invalid? name = none ↔ (l.truth? name byDefault).isSome := by
    intro name byDefault
    rw [invalid?, truth?]
    rcases l.inForce? name with _ | ⟨value, layer⟩
    · simp
    · cases hvalue : meaning? value <;> simp [hvalue]
  rw [completePlurals?, keepExactMatches?, debug?, ← hone, ← hone, ← hone]
  simp [invalid, List.filterMap_eq_nil_iff]

/-- Layers come to settings exactly if the language is not blank and no setting is invalid. -/
theorem outcome_eq_ok_iff (settings : Settings) :
    l.outcome = .ok settings ↔ Text.strip l.language.toList ≠ [] ∧
      settings.language = tidyLanguage l.language ∧
      l.completePlurals? = some settings.completePlurals ∧
      l.keepExactMatches? = some settings.keepExactMatches ∧
      l.debug? = some settings.debug := by
  rw [outcome]
  split
  case isTrue hblank => simp [hblank]
  case isFalse hlanguage =>
    split
    case h_1 completePlurals keepExactMatches debug hcomplete hkeep hdebug =>
      rw [hcomplete, hkeep, hdebug]
      cases settings
      simp [hlanguage, eq_comm]
    case h_2 hnone =>
      refine iff_of_false (by simp) ?_
      rintro ⟨-, -, hcomplete, hkeep, hdebug⟩
      exact hnone _ _ _ hcomplete hkeep hdebug

end Layers

namespace Settings

variable {l : Layers}

/-- Layers give settings exactly if their outcome is these settings. -/
theorem ofLayers_eq_ok_iff (h : l.Distinct) (settings : Settings) :
    ofLayers l = .ok settings ↔ l.outcome = .ok settings := by
  rw [← mapError_ofLayers h]
  cases ofLayers l <;> simp [Except.mapError]

/-- Layers are at fault if their outcome is a report, and the fault has this report. -/
theorem exists_fault (h : l.Distinct) {text : String} (htext : l.outcome = .error text) :
    ∃ fault, ofLayers l = .error fault ∧ fault.message = text := by
  rw [← mapError_ofLayers h] at htext
  cases hl : ofLayers l with
  | ok settings =>
      rw [hl] at htext
      cases htext
  | error fault =>
      rw [hl] at htext
      exact ⟨fault, rfl, Except.error.inj htext⟩

/-- The value of a setting that is in force is that of the process, else that of the file, else the
default, and merged layers know it together with its layer. They give settings if and only if
the language in force is not blank and no setting is invalid, and then these are the values in
force. Otherwise they are at fault. A blank language is reported alone and without a layer; else all
settings with an invalid value in force are reported, each with the layer of that value. Variables
that give no setting do not count. -/
theorem ofLayers_layered (h : l.Distinct) :
    (∀ name ∈ Layers.names, l.merged.values.get? name = (l.inForce? name).map (·.1) ∧
      l.merged.sources.get? name = (l.inForce? name).map (·.2)) ∧
    ((∃ settings, ofLayers l = .ok settings) ↔
      Text.strip l.language.toList ≠ [] ∧ l.invalid = []) ∧
    (∀ settings, ofLayers l = .ok settings →
      settings.language.toList =
          (Text.strip l.language.toList).map (fun c => if c = '_' then '-' else c) ∧
        l.completePlurals? = some settings.completePlurals ∧
        l.keepExactMatches? = some settings.keepExactMatches ∧
        l.debug? = some settings.debug) ∧
    (Text.strip l.language.toList = [] → ∃ fault, ofLayers l = .error fault ∧
      fault.message =
        Layers.report ["- Value error, ICUFORGE_TARGET_LANGUAGE must not be empty."]) ∧
    (Text.strip l.language.toList ≠ [] → l.invalid ≠ [] → ∃ fault, ofLayers l = .error fault ∧
      fault.message =
        Layers.report (l.invalid.map fun (name, layer) => Layers.invalidLine name layer)) ∧
    ∀ l' : Layers, l'.Distinct →
      (∀ name ∈ Layers.names, l'.process.get? name = l.process.get? name ∧
        (l'.file.get? name).join = (l.file.get? name).join) →
      (ofLayers l').mapError SettingsFault.message =
        (ofLayers l).mapError SettingsFault.message := by
  refine ⟨fun _ => h.merged, ?_, ?_, ?_, ?_, ?_⟩
  · simp only [ofLayers_eq_ok_iff h, Layers.outcome_eq_ok_iff, Layers.invalid_eq_nil_iff,
      Option.isSome_iff_exists]
    constructor
    · rintro ⟨settings, hlanguage, -, hcomplete, hkeep, hdebug⟩
      exact ⟨hlanguage, ⟨_, hcomplete⟩, ⟨_, hkeep⟩, ⟨_, hdebug⟩⟩
    · rintro ⟨hlanguage, ⟨completePlurals, hcomplete⟩, ⟨keepExactMatches, hkeep⟩, ⟨debug, hdebug⟩⟩
      exact ⟨⟨tidyLanguage l.language, completePlurals, keepExactMatches, debug⟩, hlanguage, rfl,
        hcomplete, hkeep, hdebug⟩
  · intro settings hsettings
    obtain ⟨-, hlanguage, htruth⟩ :=
      (Layers.outcome_eq_ok_iff settings).1 ((ofLayers_eq_ok_iff h settings).1 hsettings)
    exact ⟨by rw [hlanguage, tidyLanguage, String.toList_ofList], htruth⟩
  · intro hblank
    exact exists_fault h (by rw [Layers.outcome, if_pos hblank])
  · intro hlanguage hinvalid
    refine exists_fault h ?_
    rw [Layers.outcome, if_neg hlanguage]
    split
    case h_1 hcomplete hkeep hdebug =>
      refine absurd (l.invalid_eq_nil_iff.2 ?_) hinvalid
      simp [hcomplete, hkeep, hdebug]
    case h_2 => rfl
  · intro l' h' hagree
    have hinForce : ∀ name ∈ Layers.names, l'.inForce? name = l.inForce? name := by
      intro name hname
      rw [Layers.inForce?_eq, Layers.inForce?_eq, (hagree name hname).1, (hagree name hname).2]
    rw [mapError_ofLayers h, mapError_ofLayers h', Layers.outcome_congr hinForce]

/-- Layers in which the process says anew what the file says of traces, and the file alone says
anything of completing plurals. -/
theorem ofLayers_layered_overridden :
    let l : Layers :=
      { file := [("ICUFORGE_DEBUG", some "maybe"), ("ICUFORGE_VALIDATE_CATEGORIES", some "sure"),
          ("ICUFORGE_TARGET_LANGUAGE", none), ("HOME", some "")]
        process := [("ICUFORGE_TARGET_LANGUAGE", " pt_BR "), ("ICUFORGE_DEBUG", "2")] }
    l.Distinct ∧ ∃ fault, ofLayers l = .error fault ∧ fault.message =
      "Configuration validation errors detected:\n" ++
      "- ICUFORGE_VALIDATE_CATEGORIES: Input should be a valid boolean, unable to interpret " ++
      "input (source: env:.env:ICUFORGE_VALIDATE_CATEGORIES)\n" ++
      "- ICUFORGE_DEBUG: Input should be a valid boolean, unable to interpret input " ++
      "(source: env:process:ICUFORGE_DEBUG)" := by
  intro l
  have h : l.Distinct := ⟨by decide, by decide⟩
  obtain ⟨fault, hfault, hmessage⟩ := (ofLayers_layered h).2.2.2.2.1 (by decide) (by decide)
  refine ⟨h, fault, hfault, hmessage.trans ?_⟩
  decide +kernel

end Settings

end MessageFormat
