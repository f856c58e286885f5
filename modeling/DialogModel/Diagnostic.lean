import DialogModel.Text.Basic

/-!
# Diagnostics and failures

What the compiler reports.  A `Diagnostic` is one finding about one line and may be a warning.
A `Failure` ends the compilation: it is either a single error at a line, with the line as its
context, or the fold of all errors of the front end.

The stages describe what went wrong by types of their own.  `Cause` gives such a type its stable
code and its wording, and `Provenance.failure` turns a cause into the failure at a line.
-/

namespace DialogModel

/-- Stable identifiers of errors: callers match on these and not on the wording. -/
inductive ErrorCode
  | invalidLine
  | invalidUri
  | invalidInput
  | missingLabelledValue
  | invalidCompositeEntity
  | synonymsNotAList
  | invalidRegexEntity
  | duplicateEntityDefinition
  | roleNameCollision
  deriving DecidableEq, Repr, Inhabited

namespace ErrorCode

/-- All codes. -/
def all : List ErrorCode :=
  [.invalidLine, .invalidUri, .invalidInput, .missingLabelledValue, .invalidCompositeEntity,
   .synonymsNotAList, .invalidRegexEntity, .duplicateEntityDefinition, .roleNameCollision]

/-- The written name of a code. -/
def name : ErrorCode → String
  | .invalidLine => "InvalidLine"
  | .invalidUri => "InvalidUri"
  | .invalidInput => "InvalidInput"
  | .missingLabelledValue => "MissingLabelledValue"
  | .invalidCompositeEntity => "InvalidCompositeEntity"
  | .synonymsNotAList => "SynonymsNotAList"
  | .invalidRegexEntity => "InvalidRegexEntity"
  | .duplicateEntityDefinition => "DuplicateEntityDefinition"
  | .roleNameCollision => "RoleNameCollision"

/-- The code with a given written name. -/
def ofName? (s : String) : Option ErrorCode :=
  all.find? fun c => c.name == s

theorem ofName?_name (c : ErrorCode) : ofName? c.name = some c := by
  cases c <;> decide

end ErrorCode

/-- How much a diagnostic matters: an error stops the file, a warning does not. -/
inductive Severity
  | warn
  | error
  deriving DecidableEq, Repr, Inhabited

namespace Severity

/-- The written name of a severity. -/
def name : Severity → String
  | .warn => "Warn"
  | .error => "Error"

/-- The severity with a given written name. -/
def ofName? (s : String) : Option Severity :=
  [warn, error].find? fun c => c.name == s

end Severity

/-- A finding about one line. -/
structure Diagnostic where
  severity : Severity
  code : ErrorCode
  line : Nat
  message : String
  deriving DecidableEq, Repr, Inhabited

namespace Diagnostic

/-- Whether the finding stops the file. -/
def isError (d : Diagnostic) : Bool :=
  d.severity == .error

/-- The line number and the message. -/
def display (d : Diagnostic) : String :=
  s!"{d.line}: {d.message}"

end Diagnostic

/-- Where something was written: the file, the line number from one, and the untrimmed line. -/
structure Provenance where
  file : String
  line : Nat
  text : String
  deriving DecidableEq, Repr, Inhabited

/-- Why a file cannot be compiled. -/
structure Failure where
  code : ErrorCode
  file : String
  line : Nat
  message : String
  /-- The offending line as written, when one is known. -/
  context : Option String := none
  /-- The errors of the front end, when this failure folds them. -/
  diagnostics : List Diagnostic := []
  deriving DecidableEq, Repr, Inhabited

namespace Failure

/-- The failure that folds the errors of the front end.  Its line is the line of the first. -/
def ofDiagnostics (file : String) (diagnostics : List Diagnostic) : Failure where
  code := .invalidLine
  file := file
  line := (diagnostics.head?.map Diagnostic.line).getD 0
  message := String.intercalate "\n" (diagnostics.map Diagnostic.display)
  diagnostics := diagnostics

/-- The file, the line number and the message. -/
def display (f : Failure) : String :=
  s!"{f.file}:{f.line}: {f.message}"

/-- The line number and the message, with the trimmed line below.  Folded errors carry their line
numbers in the message already. -/
def render (f : Failure) : String :=
  if f.diagnostics.isEmpty then
    match f.context with
    | some text => s!"{f.line}: {f.message}\n    {Text.trim text}"
    | none => s!"{f.line}: {f.message}"
  else f.message

end Failure

/-- A type of things that go wrong: each has a code and a wording. -/
class Cause (ε : Type) where
  code : ε → ErrorCode
  message : ε → String

/-- The failure that a cause makes at a line, with the line as its context. -/
def Provenance.failure {ε : Type} [Cause ε] (p : Provenance) (cause : ε) : Failure where
  code := Cause.code cause
  file := p.file
  line := p.line
  message := Cause.message cause
  context := some p.text

end DialogModel
