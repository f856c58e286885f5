import DialogModel.Toml.Moment
import DialogModel.Toml.Number

/-!
# Values

Strings, truth values, numbers, moments, arrays and tables.  Arrays go over several lines and may
end with a comma; a table in braces does neither.  A table that was made by dotted keys can be
extended by further dotted keys, one that was written in braces is complete.
-/

namespace DialogModel.Toml

open Scan

/-- A value.  What a float or a moment is does not matter to any reader of a value. -/
inductive Value
  | text (s : String)
  | flag (b : Bool)
  | integer (n : Int)
  | float
  | moment
  | array (items : List Value)
  /-- The fields in the order in which they were written; `isOpen` says whether dotted keys made
  the table. -/
  | table (isOpen : Bool) (fields : List (String × Value))
  deriving Repr, Inhabited

/-- The fields of a table. -/
abbrev Fields : Type := List (String × Value)

namespace Fields

/-- The fields with another value for a key that is among them. -/
def replace (fields : Fields) (key : String) (value : Value) : Fields :=
  fields.map fun f => if f.1 = key then (key, value) else f

/-- Adds a value under dotted keys.  The last key has to be new, and the tables that the others
name have to be new or open. -/
def insert? (fields : Fields) (path : List String) (value : Value) : Option Fields :=
  match path with
  | [] => none
  | [key] => if (fields.lookup key).isSome then none else some (fields ++ [(key, value)])
  | key :: path =>
    match fields.lookup key with
    | none => (insert? [] path value).map fun inner => fields ++ [(key, .table true inner)]
    | some (.table true inner) =>
      (insert? inner path value).map fun inner => fields.replace key (.table true inner)
    | some _ => none

/-- The fields with the given dotted keys and values. -/
def ofPaths? (entries : List (List String × Value)) : Option Fields :=
  entries.foldlM (fun fields entry => insert? fields entry.1 entry.2) []

end Fields

/-! ## Reading values -/

/-- A value that holds no other values. -/
def scalar : Scan Value :=
  (Value.text <$> text) <|>
  (do word "true"; pure (.flag true)) <|>
  (do word "false"; pure (.flag false)) <|>
  (do moment; pure .moment) <|>
  (do float; pure .float) <|>
  (Value.integer <$> integer)

/-- An array of what `item` recognises. -/
def array (item : Scan Value) : Scan (List Value) := do
  char '['
  let items ← (do
    let items ← separated (gap *> item <* gap) ','
    let _ ← optional (char ',')
    pure items) <|> pure []
  gap
  char ']'
  pure items

/-- Dotted keys, an equals sign and what `item` recognises. -/
def entry (item : Scan Value) : Scan (List String × Value) := do
  let path ← keys
  char '='
  spaces
  let value ← item
  pure (path, value)

/-- A table in braces of what `item` recognises. -/
def inlineTable (item : Scan Value) : Scan Fields := do
  char '\x7b'
  let entries ← separated (entry item <* spaces) ',' <|> pure []
  spaces
  char '\x7d'
  match Fields.ofPaths? entries with
  | some fields => pure fields
  | none => failure

/-- A value in which arrays and tables go down at most `depth` levels. -/
def nested : (depth : Nat) → Scan Value
  | 0 => scalar
  | depth + 1 =>
    scalar <|> (Value.array <$> array (nested depth)) <|>
      (Value.table false <$> inlineTable (nested depth))

/-- A value. -/
def value : Scan Value :=
  nested (depthLimit - 1)

end DialogModel.Toml
