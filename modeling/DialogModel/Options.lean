/-!
# Options of a compilation

What a caller may choose, by command-line flags or in a configuration file.  The keys of a
configuration are fixed: a key that is not known, or a value of the wrong kind, is refused.  Values
may also be given without keys, in the order of the keys.
-/

namespace DialogModel

/-- What a caller may choose. -/
structure Options where
  /-- The locale that prebuilt types are checked against, in place of the one that the source
  sets. -/
  culture : Option String := none
  /-- Whether a prebuilt type that the locale lacks is skipped with a warning and not an error. -/
  verbose : Bool := false
  /-- Whether labels may stand inside the value of a label. -/
  allowNestedLabels : Bool := true
  deriving DecidableEq, Repr, Inhabited

namespace Options

/-- A value that a configuration gives to a key. -/
inductive Value
  | text (s : String)
  | flag (b : Bool)
  /-- The explicit absence of a value. -/
  | none
  /-- A value that no key takes, such as a number. -/
  | other
  deriving DecidableEq, Repr, Inhabited

/-- Gives a value to a key, if the key takes it. -/
def set? (o : Options) (key : String) (value : Value) : Option Options :=
  if key = "culture" then
    match value with
    | .text s => some { o with culture := some s }
    | .none => some { o with culture := Option.none }
    | _ => Option.none
  else if key = "verbose" then
    match value with
    | .flag b => some { o with verbose := b }
    | _ => Option.none
  else if key = "allow_nested_labels" then
    match value with
    | .flag b => some { o with allowNestedLabels := b }
    | _ => Option.none
  else Option.none

/-- The options with the given keys set, if every key takes its value. -/
def ofFields? (fields : List (String × Value)) : Option Options :=
  fields.foldlM (fun o field => o.set? field.1 field.2) {}

/-- The keys, in the order in which values without keys are given. -/
def names : List String :=
  ["culture", "verbose", "allow_nested_labels"]

/-- The options with the first keys set to the given values, if there is a key for each of them
and it takes the value. -/
def ofItems? (items : List Value) : Option Options :=
  if items.length ≤ names.length then ofFields? (names.zip items) else Option.none

end Options

end DialogModel
