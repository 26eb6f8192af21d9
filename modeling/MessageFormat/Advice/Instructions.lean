import MessageFormat.Pattern.Message
import MessageFormat.Plural.Language

/-!
# Instructions for translators

Texts that tell a translator what the constructs of a message ask for: `instructions` for a whole
message, `pluralPrompt` for the variants of one plural.
-/

namespace MessageFormat

open Plural (Kind Category)

/-- The names of the categories that a language requires. -/
def requiredNames (language : String) (kind : Kind) : String :=
  ", ".intercalate ((Plural.required language kind).map Category.name)

/-- The descriptions of the categories that a language requires. -/
def requiredDescriptions (language : String) (kind : Kind) : String :=
  "; ".intercalate ((Plural.required language kind).map fun c => Plural.describe c language kind)

/-- What to do about cardinal plurals. -/
def pluralInstruction (language : String) : String :=
  s!"This contains plural forms. Target language ({language}) requires: " ++
    requiredNames language .cardinal ++
    ". Provide translations for each required plural category. Categories: " ++
    requiredDescriptions language .cardinal ++ "."

/-- What to do about ordinal plurals. -/
def ordinalInstruction (language : String) : String :=
  s!"This contains ordinal forms. Target language ({language}) requires: " ++
    requiredNames language .ordinal ++ ". Categories: " ++
    requiredDescriptions language .ordinal ++ "."

/-- What to do about selects. -/
def selectInstruction : String :=
  "This contains select patterns. Translate each option value while keeping option keys unchanged."

/-- What to do about plurals inside branches. -/
def nestedInstruction (language : String) : String :=
  s!"This contains nested plural forms. Target language ({language}) requires: " ++
    requiredNames language .cardinal ++ "."

/-- The instructions that a message calls for, each of which depends on what it holds. -/
def Message.instructions (m : Message) (language : String) : List String :=
  let holds := fun test => m.elements.any fun e => test e.content
  (if holds Content.isCardinal then [pluralInstruction language] else []) ++
    (if holds Content.isOrdinal then [ordinalInstruction language] else []) ++
    (if holds Content.isSelect then [selectInstruction] else []) ++
    (if m.hasPlurals && !holds Content.isPlural then [nestedInstruction language] else [])

/-- The instructions for a text in one line; none if it is no message or has no branches. -/
def instructions (source language : String) : Option String :=
  match parse source with
  | .error _ => none
  | .ok m =>
    if m.isComplex then given (" ".intercalate (m.instructions language)) else none
where
  /-- A text that is not empty. -/
  given (text : String) : Option String :=
    if text = "" then none else some text

/-- A request for one translated variant for each of the categories, which are known by name. -/
def pluralPrompt (name : String) (variants : List Branch) (source target : String)
    (categories : List Category) : String :=
  "\n".intercalate <|
    [s!"Translate the following plural forms for the variable \"\x7b{name}\x7d\" " ++
        s!"from {source} to {target}.",
      "",
      s!"The target language ({target}) requires these plural categories:"] ++
    categories.map (fun c => "- " ++ Plural.describe c target .cardinal) ++
    ["", "Source plural forms:"] ++
    variants.map (fun b => s!"- {b.key}: \"{b.text}\"") ++
    ["",
      "IMPORTANT:",
      s!"- Keep the placeholder \x7b{name}\x7d or # (which represents the count) " ++
        "in all translations",
      "- Translate ONLY the text, not the ICU syntax",
      "- Provide a translation for EACH required category",
      "",
      "Respond with JSON:",
      "\x7b\"plurals\": [\x7b\"category\": \"one\", \"translation\": \"...\"\x7d, " ++
        "\x7b\"category\": \"other\", \"translation\": \"...\"\x7d]\x7d"]

end MessageFormat
