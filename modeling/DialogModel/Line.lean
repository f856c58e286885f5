import DialogModel.Text.Basic

/-!
# Lines of a source file

The language is line-oriented: what a line is can be told from the line alone.  `classify` tells
it from the first characters that are not blank, and `scan` numbers the lines of a text from one.
-/

namespace DialogModel

/-- What a line is, with the parts of it that later stages read.  All parts are trimmed. -/
inductive LineKind
  | blank
  /-- A line that starts with `>`. -/
  | comment
  /-- The directive after `> !#`. -/
  | modelInfo (directive : String)
  /-- The name after one or more `#`. -/
  | intentHeader (name : String)
  /-- The question after `# ?`. -/
  | questionHeader (question : String)
  /-- The text after a marker `-`, `*` or `+` that a blank follows. -/
  | bullet (text : String)
  /-- The declaration after `@`. -/
  | newEntity (text : String)
  /-- The name between `$` and the first `:`, and the definition after it. -/
  | legacyEntity (name definition : String)
  /-- A line that is a link `[description](path)` and nothing more. -/
  | importLink (description path : String)
  /-- The heading of the filters of a question. -/
  | filterHeader
  /-- Three backquotes, with anything behind them. -/
  | fence
  | other
  deriving DecidableEq, Repr, Inhabited

/-- A line of a source file. -/
structure Line where
  kind : LineKind
  number : Nat
  /-- The line as written, without its terminator. -/
  raw : String
  deriving DecidableEq, Repr, Inhabited

namespace LineKind

open Chars

/-- The characters that may mark a bullet. -/
def isMarker (c : Char) : Bool :=
  c == '-' || c == '*' || c == '+'

/-- The kind of a line of which `rest` follows the first `#` signs. -/
def ofHeader (rest : List Char) : LineKind :=
  match trim (rest.dropWhile (· == '#')) with
  | [] => .other
  | '?' :: question => .questionHeader (String.ofList (trim question))
  | name => .intentHeader (String.ofList name)

/-- The kind of a line of which `rest` follows `$`. -/
def ofLegacy (rest : List Char) : LineKind :=
  match breakAt? ':' rest with
  | some (name, definition) =>
    if (trim name).isEmpty then .other
    else .legacyEntity (String.ofList (trim name)) (String.ofList (trim definition))
  | none => .other

/-- The kind of a line of which `rest` follows `[`. -/
def ofLink (rest : List Char) : LineKind :=
  match (before? ')' rest).bind (breakAtText? "](".toList) with
  | some (description, path) =>
    if (trim path).isEmpty then .other
    else .importLink (String.ofList (trim description)) (String.ofList (trim path))
  | none => .other

/-- The kind of a trimmed line. -/
def ofTrimmed (line : List Char) : LineKind :=
  if (after? "```".toList line).isSome then .fence
  else if sameLetters line "**filters:**".toList then .filterHeader
  else
    match line with
    | [] => .blank
    | '>' :: rest =>
      match after? "!#".toList (trimStart rest) with
      | some directive => .modelInfo (String.ofList (trim directive))
      | none => .comment
    | '#' :: rest => ofHeader rest
    | '@' :: rest => .newEntity (String.ofList (trim rest))
    | '$' :: rest => ofLegacy rest
    | '[' :: rest => ofLink rest
    | marker :: rest =>
      if isMarker marker && rest.head?.all isBlank then .bullet (String.ofList (trim rest))
      else .other

/-- The kind of a line. -/
def classify (raw : List Char) : LineKind :=
  ofTrimmed (trim raw)

end LineKind

namespace Line

/-- The lines of a text, numbered from one and classified. -/
def scan (source : String) : List Line :=
  (Chars.lines source.toList).mapIdx fun i raw =>
    { kind := LineKind.classify raw, number := i + 1, raw := String.ofList raw }

end Line

end DialogModel
