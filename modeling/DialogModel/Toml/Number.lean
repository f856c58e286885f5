import DialogModel.Toml.Text

/-!
# Numbers

Integers have 64 bits and are written in base ten with a sign, or without one in base 16, 8 or 2.
A number with a fraction or an exponent is a 64-bit float; it may not be so large that it rounds
to infinity, though one below zero may.  A single underscore may stand between two digits.
-/

namespace DialogModel.Toml

open Scan

/-! ## Digits -/

/-- The digits of a number; an underscore may stand between two of them. -/
def digits (isDigit : Char → Bool) : Scan (List Char) := do
  let first ← one isDigit
  let others ← many (one isDigit <|> (char '_' *> one isDigit))
  pure (first :: others)

/-- The digits of a number in base ten: a zero stands alone. -/
def wholePart : Scan (List Char) :=
  (do char '0'; pure ['0']) <|> digits Char.isDigit

/-- Whether a sign stands here and it is a minus. -/
def minusSign : Scan Bool := do
  let sign ← optional (one fun c => c == '+' || c == '-')
  pure (sign == some '-')

/-! ## Integers -/

/-- Whether an integer has 64 bits. -/
def fitsWord (n : Int) : Bool :=
  decide (-0x8000000000000000 ≤ n) && decide (n ≤ 0x7FFFFFFFFFFFFFFF)

/-- An integer behind the mark of its base. -/
def markedInteger (mark : String) (base : Nat) (isDigit : Char → Bool) : Scan Int := do
  word mark
  let ds ← digits isDigit
  pure (ofDigits base ds : Nat)

/-- An integer in base ten. -/
def decimalInteger : Scan Int := do
  let minus ← minusSign
  let n := ofDigits 10 (← wholePart)
  pure (if minus then -(n : Int) else (n : Int))

/-- An integer. -/
def integer : Scan Int :=
  that fitsWord <|
    markedInteger "0x" 16 isHexDigit <|>
    markedInteger "0o" 8 (fun c => decide ('0' ≤ c) && decide (c ≤ '7')) <|>
    markedInteger "0b" 2 (fun c => c == '0' || c == '1') <|>
    decimalInteger

/-! ## Floats -/

/-- The least number that rounds to infinity: halfway between the largest float and the next power
of two. -/
def overflowBound : Nat :=
  Nat.pow 2 1024 - Nat.pow 2 970

/-- Whether the number with the given digits, times ten to `exponent`, rounds to infinity.  The
number of digits decides all cases but one, so that no large power is computed. -/
def overflows (ds : List Char) (exponent : Int) : Bool :=
  let significant := ds.dropWhile (· == '0')
  let magnitude : Int := significant.length + exponent
  if significant.isEmpty then false
  else if magnitude < 309 then false
  else if 309 < magnitude then true
  else
    decide (overflowBound * Nat.pow 10 (-exponent).toNat ≤
      ofDigits 10 significant * Nat.pow 10 exponent.toNat)

/-- The digits behind a point. -/
def fraction : Scan (List Char) :=
  char '.' *> digits Char.isDigit

/-- An exponent of ten. -/
def exponent : Scan Int := do
  let _ ← one fun c => c == 'e' || c == 'E'
  let minus ← minusSign
  let n := ofDigits 10 (← digits Char.isDigit)
  pure (if minus then -(n : Int) else (n : Int))

/-- A float with digits. -/
def decimalFloat : Scan Unit := do
  let minus ← minusSign
  let whole ← wholePart
  let (frac, exp) ←
    (do pure ([], ← exponent)) <|> (do pure (← fraction, (← optional exponent).getD 0))
  if !minus && overflows (whole ++ frac) (exp - frac.length) then failure

/-- A float without digits. -/
def namedFloat : Scan Unit := do
  let _ ← minusSign
  word "inf" <|> word "nan"

/-- A float. -/
def float : Scan Unit :=
  decimalFloat <|> namedFloat

end DialogModel.Toml
