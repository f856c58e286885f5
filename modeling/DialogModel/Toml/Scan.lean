import DialogModel.Text.Chars

/-!
# Scanners

A scanner takes what it recognises from the front of a text and gives it with the text that is
left, or it takes nothing and fails.  Scanners run one after the other by `do`; `p <|> q` tries `q`
from the same place where `p` failed.

A repetition is bounded by the length of the text: a scanner that takes a character each time does
not succeed more often.
-/

namespace DialogModel.Toml

/-- What is recognised at the front of a text, with the text behind it. -/
abbrev Scan (α : Type) : Type := StateT (List Char) Option α

namespace Scan

/-- One character that satisfies `p`. -/
def one (p : Char → Bool) : Scan Char
  | c :: rest => if p c then some (c, rest) else none
  | [] => none

/-- The character `c`. -/
def char (c : Char) : Scan Unit := do
  let _ ← one (· == c)

/-- The characters of a word. -/
def word (text : String) : Scan Unit := fun cs =>
  (Chars.after? text.toList cs).map fun rest => ((), rest)

/-- The longest run of characters that satisfy `p`, which may be empty. -/
def takeWhile (p : Char → Bool) : Scan (List Char) := fun cs =>
  some (cs.takeWhile p, cs.dropWhile p)

/-- Nothing, at the end of the text. -/
def ending : Scan Unit := fun cs =>
  if cs.isEmpty then some ((), cs) else none

/-- What `p` recognises again and again, at most once for each character of `bound`, with the text
behind it. -/
def repeated {α : Type} (p : Scan α) : (bound cs : List Char) → List α × List Char
  | [], cs => ([], cs)
  | _ :: bound, cs =>
    match p cs with
    | none => ([], cs)
    | some (a, rest) =>
      let (others, rest) := repeated p bound rest
      (a :: others, rest)

/-- What `p` recognises again and again. -/
def many {α : Type} (p : Scan α) : Scan (List α) := fun cs =>
  some (repeated p cs cs)

/-- What `p` recognises again and again, at least once, with `separator` in between. -/
def separated {α : Type} (p : Scan α) (separator : Char) : Scan (List α) := do
  let first ← p
  let others ← many (char separator *> p)
  pure (first :: others)

/-- What `p` recognises `count` times. -/
def times {α : Type} (p : Scan α) : (count : Nat) → Scan (List α)
  | 0 => pure []
  | count + 1 => do
    let first ← p
    let others ← times p count
    pure (first :: others)

/-- What `p` recognises, if it satisfies `ok`. -/
def that {α : Type} (ok : α → Bool) (p : Scan α) : Scan α := do
  let a ← p
  if ok a then pure a else failure

end Scan

/-! ## Blanks, line ends and comments -/

open Scan

/-- Whether a character may stand in a comment or in quotes: no control character but the tab. -/
def isPrintable (c : Char) : Bool :=
  c == '\t' || (decide (0x20 ≤ c.toNat) && c != '\x7f')

/-- Whether a character is a blank inside a line. -/
def isSpace (c : Char) : Bool :=
  c == ' ' || c == '\t'

/-- The blanks inside a line, if any. -/
def spaces : Scan Unit := do
  let _ ← takeWhile isSpace

/-- A line end: a line feed, or a carriage return and a line feed. -/
def newline : Scan Unit :=
  char '\n' <|> word "\r\n"

/-- A comment up to the end of its line. -/
def comment : Scan Unit := do
  char '#'
  let _ ← takeWhile isPrintable

/-- What may stand behind a statement, up to the end of the line or of the text. -/
def trailing : Scan Unit := do
  spaces
  let _ ← optional comment
  newline <|> ending

/-- The blanks and line ends here, if any. -/
def whitespace : Scan Unit := do
  let _ ← many ((do let _ ← one isSpace) <|> newline)

/-- The blanks, line ends and comments here, if any. -/
def gap : Scan Unit := do
  let _ ← many ((do let _ ← one isSpace) <|> newline <|> (comment *> newline))

end DialogModel.Toml
