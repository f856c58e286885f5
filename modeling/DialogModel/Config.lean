import DialogModel.Options
import DialogModel.Toml.Document

/-!
# Configuration files

A configuration file gives options in a table `parse` and nothing else.  The table is given in one
of three ways: below the heading `[parse]`, by keys `parse.name` one by one, or as a whole by the
key `parse`.  A whole table is one in braces, or an array of the options in their order, of which
only as many items are looked at as there are options.
-/

namespace DialogModel.Config

open Toml

/-- The value as one that an option may take. -/
def setting : Toml.Value → Options.Value
  | .text s => .text s
  | .flag b => .flag b
  | _ => .other

/-- The table as far as the statements so far give it. -/
inductive Given
  | nothing
  /-- Field by field, behind a heading or by dotted keys. -/
  | piecewise (headed : Bool) (fields : Fields)
  | whole (value : Toml.Value)
  deriving Repr, Inhabited

namespace Given

/-- Adds a field that is not there yet. -/
def add? (headed : Bool) (fields : Fields) (key : String) (value : Toml.Value) : Option Given :=
  (fields.insert? [key] value).map (.piecewise headed)

/-- Takes a statement. -/
def step? : Given → Statement → Option Given
  | .nothing, .heading ["parse"] => some (.piecewise true [])
  | .nothing, .assignment ["parse"] value => some (.whole value)
  | .nothing, .assignment ["parse", key] value => add? false [] key value
  | .piecewise false fields, .assignment ["parse", key] value => add? false fields key value
  | .piecewise true fields, .assignment [key] value => add? true fields key value
  | _, _ => none

/-- The options that the table holds. -/
def options? : Given → Option Options
  | .nothing => some {}
  | .piecewise _ fields | .whole (.table _ fields) =>
    Options.ofFields? (fields.map fun f => (f.1, setting f.2))
  | .whole (.array items) => Options.ofItems? ((items.take Options.names.length).map setting)
  | .whole _ => none

end Given

/-- The options in a configuration file, if it can be read. -/
def read? (text : String) : Option Options := do
  let statements ← Toml.read? text
  let given ← statements.foldlM Given.step? .nothing
  given.options?

end DialogModel.Config
