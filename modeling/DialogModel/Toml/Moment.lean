import DialogModel.Toml.Scan

/-!
# Dates and times

A date, a time, or both with a `T` or a blank in between and perhaps an offset.  The day has to be
one that the month has in that year.  A minute may have a leap second.
-/

namespace DialogModel.Toml

open Scan

/-- A number of `width` digits between two bounds. -/
def field (width low high : Nat) : Scan Nat :=
  that (fun n => decide (low ≤ n) && decide (n ≤ high)) <| do
    let ds ← times (one Char.isDigit) width
    pure (ds.foldl (fun n c => 10 * n + (c.toNat - 48)) 0)

/-- Whether a year has a leap day. -/
def isLeapYear (year : Nat) : Bool :=
  year % 4 == 0 && (year % 100 != 0 || year % 400 == 0)

/-- The number of days of a month. -/
def daysIn (year month : Nat) : Nat :=
  if month = 2 then if isLeapYear year then 29 else 28
  else if month = 4 ∨ month = 6 ∨ month = 9 ∨ month = 11 then 30
  else 31

/-- A date: a year, a month and a day. -/
def date : Scan Unit := do
  let year ← field 4 0 9999
  char '-'
  let month ← field 2 1 12
  char '-'
  let _ ← field 2 1 (daysIn year month)

/-- A time: hours, minutes and seconds, perhaps with a fraction. -/
def time : Scan Unit := do
  let _ ← field 2 0 23
  char ':'
  let _ ← field 2 0 59
  char ':'
  let _ ← field 2 0 60
  let _ ← optional do
    char '.'
    that (!·.isEmpty) (takeWhile Char.isDigit)

/-- The offset of a time. -/
def offset : Scan Unit := do
  let c ← one fun c => c == 'Z' || c == 'z' || c == '+' || c == '-'
  if c = '+' ∨ c = '-' then
    let _ ← field 2 0 23
    char ':'
    let _ ← field 2 0 59

/-- A date, a time, or both. -/
def moment : Scan Unit :=
  (do
    date
    let _ ← optional do
      let _ ← one fun c => c == 'T' || c == 't' || c == ' '
      time
      optional offset) <|>
  time

end DialogModel.Toml
