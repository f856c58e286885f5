import DialogModel.Export

/-!
# Stored failures

Reading back the stored JSON form of a failure.  A record is an object, in which fields that are
not known are ignored, or an array of the fields in their order, in which the last ones may be
missing if they need not be there.  A word of a fixed choice is a string, or an object with the
word as its only key and `null` as the value.  A line number has 32 bits.
-/

namespace DialogModel

namespace Json

/-- The text of a string. -/
def text? : Json → Option String
  | .str s => some s
  | _ => none

/-- The text of a string, or that there is none. -/
def optionalText? : Json → Option (Option String)
  | .null => some none
  | .str s => some (some s)
  | _ => none

/-- A line number. -/
def lineNumber? : Json → Option Nat
  | .num n => if 0 ≤ n ∧ n ≤ 0xFFFFFFFF then some n.toNat else none
  | _ => none

/-- A word of a fixed choice. -/
def choice? : Json → Option String
  | .str s => some s
  | .obj [(s, .null)] => some s
  | _ => none

/-- The values of the fields of a record, each of which may be missing. -/
def record? (names : List String) : Json → Option (List (Option Json))
  | .obj fields => some (names.map fun name => fields.lookup name)
  | .arr items =>
    if items.length ≤ names.length then
      some (items.map some ++ List.replicate (names.length - items.length) none)
    else none
  | _ => none

end Json

/-- Reads a severity. -/
def Severity.ofJson? (j : Json) : Option Severity :=
  j.choice?.bind Severity.ofName?

/-- Reads an error code. -/
def ErrorCode.ofJson? (j : Json) : Option ErrorCode :=
  j.choice?.bind ErrorCode.ofName?

/-- Reads a diagnostic. -/
def Diagnostic.ofJson? (j : Json) : Option Diagnostic := do
  match ← j.record? ["severity", "code", "line", "message"] with
  | [some severity, some code, some line, some message] =>
    some {
      severity := ← Severity.ofJson? severity
      code := ← ErrorCode.ofJson? code
      line := ← line.lineNumber?
      message := ← message.text? }
  | _ => none

/-- Reads the diagnostics in an array. -/
def Diagnostic.listOfJson? : Json → Option (List Diagnostic)
  | .arr items => items.mapM Diagnostic.ofJson?
  | _ => none

/-- Reads a stored failure.  The context and the folded errors may be missing. -/
def Failure.ofJson? (j : Json) : Option Failure := do
  match ← j.record? ["code", "file", "line", "message", "context", "diagnostics"] with
  | [some code, some file, some line, some message, context, diagnostics] =>
    some {
      code := ← ErrorCode.ofJson? code
      file := ← file.text?
      line := ← line.lineNumber?
      message := ← message.text?
      context := ← (context.getD .null).optionalText?
      diagnostics := ← Diagnostic.listOfJson? (diagnostics.getD (.arr [])) }
  | _ => none

end DialogModel
