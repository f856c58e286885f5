import DialogModel.Text.Blank

/-!
# Lexical operations on characters

Everything the readers of this library do to a piece of text before they know what it means:
removing surrounding blanks, cutting at a separator, comparing without regard to case.  All of
them are structural functions on `List Char`, so that each has an equation per constructor; the
forms on `String` in `DialogModel.Text.Basic` are these functions between `toList` and `ofList`.

Case is ASCII case throughout: letters outside `A` to `Z` have none.
-/

namespace DialogModel.Chars

/-! ## Removing characters at the ends -/

/-- Drops the longest final run of characters that satisfy `p`. -/
def dropWhileEnd (p : Char → Bool) (cs : List Char) : List Char :=
  (cs.reverse.dropWhile p).reverse

/-- Drops the longest runs of characters that satisfy `p` at both ends. -/
def stripWhere (p : Char → Bool) (cs : List Char) : List Char :=
  dropWhileEnd p (cs.dropWhile p)

/-- Drops the leading blanks. -/
def trimStart (cs : List Char) : List Char :=
  cs.dropWhile isBlank

/-- Drops the blanks at both ends. -/
def trim (cs : List Char) : List Char :=
  stripWhere isBlank cs

/-- What follows `front` in `cs`, if `cs` starts with it. -/
def after? : (front cs : List Char) → Option (List Char)
  | [], cs => some cs
  | _ :: _, [] => none
  | f :: front, c :: cs => if f = c then after? front cs else none

/-- What precedes the last character of `cs`, if that character is `c`. -/
def before? (c : Char) (cs : List Char) : Option (List Char) :=
  match cs.reverse with
  | [] => none
  | d :: ds => if d = c then some ds.reverse else none

/-! ## Cutting at separators -/

/-- The text before and after the first occurrence of `sep`. -/
def breakAt? (sep : Char) : List Char → Option (List Char × List Char)
  | [] => none
  | c :: cs =>
    if c = sep then some ([], cs)
    else (breakAt? sep cs).map fun (before, rest) => (c :: before, rest)

/-- The text before and after the first occurrence of a whole word `sep`. -/
def breakAtText? (sep : List Char) : List Char → Option (List Char × List Char)
  | [] => (after? sep []).map fun rest => ([], rest)
  | c :: cs =>
    match after? sep (c :: cs) with
    | some rest => some ([], rest)
    | none => (breakAtText? sep cs).map fun (before, rest) => (c :: before, rest)

/-- Whether `word` occurs in `cs`. -/
def hasInfix (word cs : List Char) : Bool :=
  (breakAtText? word cs).isSome

/-- The maximal runs of characters that are not blank. -/
def words (cs : List Char) : List (List Char) :=
  (cs.splitOnP isBlank).filter (!·.isEmpty)

/-- The items of a comma-separated list: surrounding blanks are dropped and so are empty items. -/
def items (cs : List Char) : List (List Char) :=
  ((cs.splitOn ',').map trim).filter (!·.isEmpty)

/-- The lines of a text whose current line has begun with `seen`, read backwards.  A line feed
ends a line, together with one carriage return directly before it.  A last line without a line
feed keeps all its characters, and no line follows a final line feed. -/
def linesFrom (seen : List Char) : List Char → List (List Char)
  | [] => if seen.isEmpty then [] else [seen.reverse]
  | c :: cs =>
    if c = '\n' then
      let kept := match seen with
        | '\r' :: rest => rest
        | _ => seen
      kept.reverse :: linesFrom [] cs
    else linesFrom (c :: seen) cs

/-- The lines of a text. -/
def lines (cs : List Char) : List (List Char) :=
  linesFrom [] cs

/-! ## Case -/

/-- The text with its ASCII capitals made small. -/
def lower (cs : List Char) : List Char :=
  cs.map Char.toLower

/-- Equality up to ASCII case. -/
def sameLetters (a b : List Char) : Bool :=
  lower a == lower b

end DialogModel.Chars
