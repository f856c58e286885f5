import DialogModel.Text.Chars

/-!
# Lexical operations on strings

The operations of `DialogModel.Text.Chars` on the strings that the library stores.
-/

namespace DialogModel.Text

/-- The text without its surrounding blanks. -/
def trim (s : String) : String :=
  String.ofList (Chars.trim s.toList)

/-- The text with its ASCII capitals made small. -/
def lower (s : String) : String :=
  String.ofList (Chars.lower s.toList)

/-- Equality up to ASCII case. -/
def sameLetters (a b : String) : Bool :=
  Chars.sameLetters a.toList b.toList

/-- The items of a comma-separated list. -/
def items (s : String) : List String :=
  (Chars.items s.toList).map String.ofList

/-- The lines of a text. -/
def lines (s : String) : List String :=
  (Chars.lines s.toList).map String.ofList

/-- Whether nothing but blanks is in the text. -/
def isVacant (s : String) : Bool :=
  (trim s).isEmpty

@[simp]
theorem toList_trim (s : String) : (trim s).toList = Chars.trim s.toList := by
  simp [trim]

@[simp]
theorem toList_lower (s : String) : (lower s).toList = Chars.lower s.toList := by
  simp [lower]

end DialogModel.Text
