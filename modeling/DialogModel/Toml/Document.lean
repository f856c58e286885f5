import DialogModel.Toml.Value

/-!
# Documents

A document is a sequence of statements on lines of their own: headings of tables, headings of
items of an array of tables, and assignments.  What the headings and dotted keys build up together
is for the reader of the statements to say.
-/

namespace DialogModel.Toml

open Scan

/-- A statement of a document. -/
inductive Statement
  /-- A heading `[path]`. -/
  | heading (path : List String)
  /-- A heading `[[path]]`. -/
  | itemHeading (path : List String)
  /-- A line `path = value`. -/
  | assignment (path : List String) (value : Value)
  deriving Repr, Inhabited

/-- A statement up to the end of its line. -/
def statement : Scan Statement :=
  (do word "[["; let path ← keys; word "]]"; trailing; pure (.itemHeading path)) <|>
  (do char '['; let path ← keys; char ']'; trailing; pure (.heading path)) <|>
  (do let (path, value) ← entry value; trailing; pure (.assignment path value))

/-- A line end, a comment with its line end, or a statement. -/
def line : Scan (Option Statement) :=
  spaces *>
    ((do newline; pure none) <|>
      (do comment; newline <|> ending; pure none) <|>
      (some <$> statement))

/-- The statements of a document. -/
def document : Scan (List Statement) := do
  let lines ← many line
  spaces
  ending
  pure (lines.filterMap id)

/-- The statements of a text, if it is a document.  A byte-order mark in front does not count. -/
def read? (text : String) : Option (List Statement) :=
  let cs := match text.toList with
    | '\uFEFF' :: rest => rest
    | cs => cs
  (document.run cs).map Prod.fst

end DialogModel.Toml
