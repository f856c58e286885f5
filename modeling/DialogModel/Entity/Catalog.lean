import DialogModel.Text.Basic

/-!
# The catalog of prebuilt types

The entity types that come with the recogniser, and for each locale which of them it lacks and
which it offers under another name.  A locale without a row of its own has the row of `en-us`.
Types are looked up without regard to case; the tables of a locale hold canonical spellings.
-/

namespace DialogModel.Entity.Catalog

/-- All prebuilt types in canonical spelling. -/
def types : List String :=
  ["age", "datetime", "datetimeV2", "dimension", "email", "geographyV2", "keyPhrase", "money",
   "number", "ordinal", "ordinalV2", "percentage", "personName", "phonenumber", "temperature",
   "url"]

/-- The canonical spelling of a type. -/
def lookup? (type : String) : Option String :=
  types.find? fun t => Text.sameLetters t type

/-- What a locale lacks, and what it offers under another name. -/
structure Locale where
  name : String
  unavailable : List String
  substitutions : List (String × String)
  deriving DecidableEq, Repr

/-- The locale that stands in for all those without a row. -/
def defaultLocale : Locale where
  name := "en-us"
  unavailable := []
  substitutions := [("datetime", "datetimeV2")]

/-- The locales with a row of their own. -/
def locales : List Locale :=
  let v2 := [("datetime", "datetimeV2")]
  let v1 := [("datetimeV2", "datetime")]
  let western := ["personName", "ordinalV2"]
  let fewer := ["personName", "ordinalV2", "geographyV2"]
  let fewest := ["personName", "ordinalV2", "geographyV2", "keyPhrase"]
  [defaultLocale,
   ⟨"en-gb", ["personName"], v2⟩,
   ⟨"fr-fr", western, v2⟩,
   ⟨"fr-ca", western, v2⟩,
   ⟨"de-de", western, v2⟩,
   ⟨"it-it", western, v2⟩,
   ⟨"es-es", western, v2⟩,
   ⟨"es-mx", western, v2⟩,
   ⟨"pt-br", western, v2⟩,
   ⟨"nl-nl", fewer, v2⟩,
   ⟨"tr-tr", fewer, v2⟩,
   ⟨"zh-cn", fewer, v2⟩,
   ⟨"ja-jp", fewest, v1⟩,
   ⟨"ko-kr", fewest, v1⟩]

/-- The row of a locale. -/
def localeOf (name : String) : Locale :=
  (locales.find? fun l => Text.sameLetters l.name name).getD defaultLocale

/-- The name under which a locale offers a type, if it offers it. -/
def available? (locale type : String) : Option String :=
  let row := localeOf locale
  if type ∈ row.unavailable then none
  else
    match row.substitutions.lookup type with
    | some name => some name
    | none => lookup? type

end DialogModel.Entity.Catalog
