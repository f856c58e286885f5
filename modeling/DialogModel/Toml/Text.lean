import DialogModel.Toml.Scan

/-!
# Strings and keys

A string stands in double quotes, where a backslash introduces an escape, or in single quotes,
where every character stands for itself.  In three quotes of either kind it may go over several
lines: a line end directly behind the opening quotes does not count, one or two quotes may stand
anywhere, also before the closing quotes, and every line end reads as a line feed.
-/

namespace DialogModel.Toml

open Scan

/-! ## Escapes -/

/-- The value of a hexadecimal digit. -/
def hexValue? (c : Char) : Option Nat :=
  if '0' ≤ c ∧ c ≤ '9' then some (c.toNat - 48)
  else if 'a' ≤ c ∧ c ≤ 'f' then some (c.toNat - 87)
  else if 'A' ≤ c ∧ c ≤ 'F' then some (c.toNat - 55)
  else none

/-- Whether a character is a hexadecimal digit. -/
def isHexDigit (c : Char) : Bool :=
  (hexValue? c).isSome

/-- The number with the given digits in a base. -/
def ofDigits (base : Nat) (digits : List Char) : Nat :=
  digits.foldl (fun n c => base * n + (hexValue? c).getD 0) 0

/-- The character whose number is written with `width` hexadecimal digits. -/
def numbered (width : Nat) : Scan Char := do
  let n ← that Nat.isValidChar (ofDigits 16 <$> times (one isHexDigit) width)
  pure (Char.ofNat n)

/-- The character that a letter stands for behind a backslash. -/
def escaped? (c : Char) : Option Char :=
  [('b', '\x08'), ('t', '\t'), ('n', '\n'), ('f', '\x0c'), ('r', '\r'), ('"', '"'),
   ('\\', '\\')].lookup c

/-- A backslash and what makes a character of it. -/
def escape : Scan Char := do
  char '\\'
  let c ← one fun _ => true
  match escaped? c with
  | some x => pure x
  | none => if c = 'u' then numbered 4 else if c = 'U' then numbered 8 else failure

/-- A backslash at the end of a line, which joins it to the next text. -/
def lineJoin : Scan Unit := do
  char '\\'
  spaces
  newline
  whitespace

/-! ## Strings -/

/-- Whether a character stands for itself between the given quotes. -/
def isPlainIn (quote c : Char) : Bool :=
  isPrintable c && c != quote && (quote != '"' || c != '\\')

/-- A string on one line. -/
def lineString (quote : Char) : Scan String := do
  char quote
  let plain := one (isPlainIn quote)
  let cs ← many (if quote = '"' then plain <|> escape else plain)
  char quote
  pure (String.ofList cs)

/-- The closing quotes of a string over several lines, with up to two quotes that belong to the
string. -/
def closing (quote : Char) : Scan (List Char) :=
  let quotes (count : Nat) : Scan Unit := do
    let _ ← times (char quote) count
  (do quotes 5; pure [quote, quote]) <|> (do quotes 4; pure [quote]) <|> (do quotes 3; pure [])

/-- A quote that is not one of three. -/
def loneQuote (quote : Char) : Scan Char := fun cs =>
  if [quote, quote, quote].isPrefixOf cs then none else one (· == quote) cs

/-- A piece of a string over several lines. -/
def piece (quote : Char) : Scan (List Char) :=
  let plain : Scan (List Char) :=
    (List.singleton <$> one (isPlainIn quote)) <|> (do newline; pure ['\n']) <|>
      (List.singleton <$> loneQuote quote)
  if quote = '"' then
    plain <|> (do lineJoin; pure []) <|> (List.singleton <$> escape)
  else plain

/-- A string that may go over several lines. -/
def blockString (quote : Char) : Scan String := do
  let _ ← times (char quote) 3
  let _ ← optional newline
  let pieces ← many (piece quote)
  let final ← closing quote
  pure (String.ofList (pieces.flatten ++ final))

/-- A string. -/
def text : Scan String :=
  blockString '"' <|> lineString '"' <|> blockString '\'' <|> lineString '\''

/-! ## Keys -/

/-- Whether a character may stand in a key without quotes. -/
def isBareKeyChar (c : Char) : Bool :=
  c.isAlphanum || c == '_' || c == '-'

/-- A key. -/
def key : Scan String :=
  lineString '"' <|> lineString '\'' <|>
    (String.ofList <$> that (!·.isEmpty) (takeWhile isBareKeyChar))

/-- One more than the number of levels that keys, arrays and tables may go down. -/
def depthLimit : Nat := 80

/-- Keys with dots between them. -/
def keys : Scan (List String) :=
  that (fun ks => decide (ks.length < depthLimit)) (separated (spaces *> key <* spaces) '.')

end DialogModel.Toml
